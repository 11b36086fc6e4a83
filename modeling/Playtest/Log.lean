/-!
# Log messages

What happens on the way of a run besides its result. Operations that have something to say return it
as a list of messages in the order in which things happened.
-/

namespace Playtest

/-- How much a message matters. -/
inductive LogLevel where
  | error
  | warn
  | info
  | debug
  deriving Repr, DecidableEq

namespace LogLevel

/-- The name of a level. -/
def name : LogLevel → String
  | .error => "ERROR"
  | .warn => "WARN"
  | .info => "INFO"
  | .debug => "DEBUG"

/-- The most severe level has the lowest rank. -/
def rank : LogLevel → Nat
  | .error => 0
  | .warn => 1
  | .info => 2
  | .debug => 3

end LogLevel

/-- A **message** with its level. -/
structure LogMessage where
  level : LogLevel
  text : String
  deriving Repr, DecidableEq

namespace LogMessage

/-- A message as a line. -/
def line (m : LogMessage) : String := s!"{m.level.name} {m.text}"

/-- Whether a message is shown at a level. -/
def shownAt (level : LogLevel) (m : LogMessage) : Bool := m.level.rank ≤ level.rank

end LogMessage

end Playtest
