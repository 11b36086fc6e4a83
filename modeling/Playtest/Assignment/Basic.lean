import Playtest.Calendar.Reader
import Playtest.Criteria.Basic
import Playtest.Log

/-!
# Work assignments

A request from a remote side to play one sequence: which one, from when on, and for how long at
most. The status is driven here; only a cancellation comes from the remote side.

* `Assignment.decoder` reads an assignment and says what it has to say about the start time,
* `Assignment.report` is what is sent back.
-/

namespace Playtest

open Playtest.Json Playtest.Calendar

/-- How far an assignment is. -/
inductive Status where
  | pending
  | running
  | completed
  | cancelled
  | failed
  deriving Repr, DecidableEq

namespace Status

/-- The name of a status. -/
def name : Status → String
  | .pending => "PENDING"
  | .running => "RUNNING"
  | .completed => "COMPLETED"
  | .cancelled => "CANCELLED"
  | .failed => "FAILED"

/-- Whether a status is the last one. -/
def isTerminal : Status → Bool
  | .completed | .cancelled | .failed => true
  | .pending | .running => false

/-- Reads a status. -/
def decoder : Decoder Status :=
  .word [("PENDING", .pending), ("RUNNING", .running), ("COMPLETED", .completed),
    ("CANCELLED", .cancelled), ("FAILED", .failed)]

end Status

/-- A **work assignment**. -/
structure Assignment where
  id : Int64
  /-- The resource path of what is to be played. -/
  resourcePath : String
  /-- Without a start time the assignment is due at once. -/
  startTime : Option Instant
  /-- Seconds, more than zero. -/
  timeout : Option Float
  status : Status
  /-- The status that the remote side sent. -/
  remoteStatus : Option String

/-- What is reported about an assignment. -/
structure Report where
  id : Int64
  status : Status
  details : Option Value

namespace Report

/-- The details of a failure. -/
def errorDetails (error : String) : Value := .obj [("error", .str error)]

/-- The fields of a report. -/
def record : Record Report :=
  Report.mk <$> .field "id" .int64 <*> .field "status" Status.decoder
    <*> .fieldOption "details" .value

/-- Reads a report. -/
def decoder : Decoder Report := record.decoder "struct WorkAssignmentReport"

/-- A report as a document. -/
def toValue (r : Report) : Value :=
  .obj [("id", .int (.ofInt64 r.id)), ("status", .str r.status.name),
    ("details", r.details.getD .null)]

end Report

namespace Assignment

/-- A new assignment. -/
def of (id : Int64) (resourcePath : String) : Assignment :=
  ⟨id, resourcePath, none, none, .pending, none⟩

/-- An assignment as it was sent. -/
structure Raw where
  id : Option Int64
  resourcePath : Option String
  startTime : Option Value
  timeout : Option Float
  status : Option String

/-- The fields of an assignment. -/
def Raw.record : Record Raw :=
  Raw.mk <$> .fieldMaybe "id" .int64 <*> .fieldMaybe "resourcePath" .text
    <*> .fieldMaybe "startTime" .value <*> .fieldMaybe "timeout" .float
    <*> .fieldMaybe "status" .text

/-- The start time that a text means. A text that means none is reported and not a failure. -/
def startTimeOfText (id : Int64) (text : String) : Option Instant × List LogMessage :=
  match Instant.ofFull text with
  | .ok t => (some t, [])
  | .error fault =>
      match Instant.ofLocal? text with
      | some t =>
          (some t, [⟨.debug,
            s!"Start time `{text}` of work assignment {id.toInt} has no offset, using UTC"⟩])
      | none =>
          (none, [⟨.error, s!"Failed to parse start time `{text}` for work assignment "
            ++ s!"{id.toInt}, starting immediately: {fault.message}"⟩])

/-- The start time that a value means. What is no string is taken as its text. -/
def startTimeOf (id : Int64) : Option Value → Option Instant × List LogMessage
  | none => (none, [])
  | some .null => (none, [])
  | some (.str text) => startTimeOfText id text
  | some v => startTimeOfText id v.render

/-- Checks what was sent. -/
def ofRaw (raw : Raw) : Except DocumentError (Assignment × List LogMessage) := do
  let id ← raw.id.elim (.error (.missing "id")) .ok
  let resourcePath ← raw.resourcePath.elim (.error (.missing "resourcePath")) .ok
  let (startTime, messages) := startTimeOf id raw.startTime
  return ({ id, resourcePath, startTime
            timeout := raw.timeout.filter fun t => 0.0 < t
            status := .pending
            remoteStatus := raw.status }, messages)

/-- Reads an assignment. -/
def decoder : Decoder (Assignment × List LogMessage) :=
  (Raw.record.decoder "struct RawWorkAssignment").andThen fun raw =>
    (ofRaw raw).mapError DocumentError.message

/-- Whether the remote side wants the assignment cancelled. -/
def isCancelRequested (a : Assignment) : Bool :=
  match a.remoteStatus with
  | some status => CriteriaKind.sameLetters status "CANCELLED"
  | none => false

/-- Whether the start time has come. -/
def isDue (a : Assignment) (now : Instant) : Bool :=
  match a.startTime with
  | some t => t.notAfter now
  | none => true

/-- What is reported about an assignment. -/
def report (a : Assignment) (details : Option Value) : Report := ⟨a.id, a.status, details⟩

end Assignment

end Playtest
