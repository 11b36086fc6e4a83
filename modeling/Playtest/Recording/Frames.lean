import Playtest.Clock
import Playtest.Scene.Frame
import Playtest.Text.Lines

/-!
# Recordings

A recording is a text with one frame on each line; blank lines do not count. Frames may say when
they were taken. Where two neighbours do, the time between them is known.

* `framesOf` reads a recording,
* `timeBetween` is the time from one frame to the next.
-/

namespace Playtest.Recording

open Playtest.Json Playtest.Scene

/-- A line that is no frame. -/
structure BadLine where
  /-- Counted from one, blank lines included. -/
  number : Nat
  reason : DecodeError

/-- Where a line that is no frame stands. -/
def BadLine.context (b : BadLine) : String := s!"Invalid frame on line {b.number}"

/-- The frames on some lines. -/
def framesOn : List (Nat × String) → Except BadLine (List Frame)
  | [] => .ok []
  | (number, line) :: rest =>
      match Frame.decoder.ofText line with
      | .error reason => .error ⟨number, reason⟩
      | .ok frame => (framesOn rest).map (frame :: ·)

/-- **Reads a recording.** -/
def framesOf (text : String) : Except BadLine (List Frame) := framesOn (Text.records text)

/-- The **seconds from one frame to the next**: `fallback` unless both frames have a time. -/
def timeBetween (previous : Option Frame) (current : Frame) (fallback : Float) : Float :=
  match previous.bind (·.time), current.time with
  | some p, some c => forward (c - p)
  | _, _ => fallback

end Playtest.Recording
