import Playtest.Log

/-!
# Abort signals

Handles send a signal to abort, and listeners hear it. A listener hears the signals that were sent
after it began to listen; it also takes it for a signal when the last handle is gone, because nobody
is left to drive what listens. A listener that has heard a signal never forgets it.
-/

namespace Playtest.Abort

/-- What all handles and listeners of one **signal** share. -/
structure Signal where
  /-- How often it was sent. -/
  sent : Nat
  /-- How many handles there are. -/
  handles : Nat
  /-- How many listeners there are. -/
  listeners : Nat
  deriving Repr, DecidableEq

/-- One side that hears a signal. -/
structure Listener where
  /-- How often the signal had been sent when the listener began. -/
  since : Nat
  isAborted : Bool
  deriving Repr, DecidableEq

/-- What a listener **finds** when it looks whether a signal has come. -/
inductive Reception where
  /-- A signal that it has not seen before. -/
  | message
  /-- It has missed signals, because others were sent behind them. -/
  | lagged
  /-- There is no signal, and no handle is left to send one. -/
  | closed
  | empty
  deriving Repr, DecidableEq

/-- Whether a listener takes what it finds for an abort. -/
def Reception.isAbort : Reception → Bool
  | message | lagged | closed => true
  | empty => false

/-- What is said when an abort was heard. -/
def message : String := "Playback aborted by abort signal"

namespace Signal

/-- A signal with one handle. -/
def fresh : Signal := ⟨0, 1, 0⟩

/-- One handle more. -/
def clone (s : Signal) : Signal := { s with handles := s.handles + 1 }

/-- One handle less. -/
def drop (s : Signal) : Signal := { s with handles := s.handles - 1 }

/-- A new listener. -/
def listen (s : Signal) : Listener × Signal :=
  (⟨s.sent, false⟩, { s with listeners := s.listeners + 1 })

/-- One listener less. -/
def leave (s : Signal) : Signal := { s with listeners := s.listeners - 1 }

/-- Sends the signal. It is worth a warning if nobody listens. -/
def abort (s : Signal) : Signal × List LogMessage :=
  if s.listeners = 0 then (s, [⟨.warn, "Failed to send abort signal: SendError(())"⟩])
  else ({ s with sent := s.sent + 1 }, [])

/-- What a listener finds that has not found anything since the signal had been sent that often.
Only the last signal is kept. -/
def receive (s : Signal) (since : Nat) : Reception :=
  if since + 1 < s.sent then .lagged
  else if since < s.sent then .message
  else if s.handles = 0 then .closed
  else .empty

end Signal

namespace Listener

/-- Whether a listener that looks at the signal now knows of an abort. -/
def hears (l : Listener) (s : Signal) : Bool := l.isAborted || (s.receive l.since).isAbort

/-- The listener after looking at the signal. -/
def look (l : Listener) (s : Signal) : Listener := { l with isAborted := l.hears s }

end Listener

end Playtest.Abort
