import Playtest.Json.Decode
import Playtest.Result.Digest

/-!
# Results

How each segment of a run ended, and how the run as a whole did.

* `SegmentResult` and `RunResult` are the two records,
* `RunResult.fingerprint` identifies the shape of the played sequence: its name, and the names of
  its lists and segments in the order of their numbers,
* `RunResult.render` and `RunResult.decoder` store a result as one line of text and read it back.
-/

namespace Playtest

open Playtest.Json

/-- How a segment ended. -/
inductive Outcome where
  | completed
  | timedOut
  | failed
  /-- The run ended before the segment was reached. -/
  | notStarted
  deriving Repr, DecidableEq

/-- How one segment of a run did. -/
structure SegmentResult where
  listName : String
  segmentName : String
  /-- The position of the segment in the whole run, counted from one. -/
  segmentNumber : UInt64
  outcome : Outcome
  /-- Whether the success of the run depends on this segment. -/
  isRequired : Bool
  /-- Completed, and not because a wait for validations ran out. -/
  passed : Bool
  /-- Seconds from the first tick to the end. -/
  elapsed : Float
  ticks : UInt64
  /-- Why a segment did not pass. -/
  detail : Option String
  validationsTimedOut : Bool

/-- How a run did. -/
structure RunResult where
  runId : String
  sequenceName : String
  /-- Seconds since 1970. -/
  startedAt : Int64
  /-- Seconds, summed up from the ticks. -/
  duration : Float
  success : Bool
  saveLocation : String
  /-- One result per segment, in the order of the sequence. -/
  segments : List SegmentResult

namespace Outcome

/-- The name of an outcome. -/
def name : Outcome → String
  | .completed => "Completed"
  | .timedOut => "TimedOut"
  | .failed => "Failed"
  | .notStarted => "NotStarted"

/-- Reads an outcome. -/
def decoder : Decoder Outcome :=
  .word [("Completed", .completed), ("TimedOut", .timedOut), ("Failed", .failed),
    ("NotStarted", .notStarted)]

end Outcome

namespace SegmentResult

/-- The result of a segment that was never reached. -/
def notStarted (listName segmentName : String) (number : UInt64) (isRequired : Bool) :
    SegmentResult :=
  { listName, segmentName, isRequired
    segmentNumber := number
    outcome := .notStarted
    passed := false
    elapsed := 0.0
    ticks := 0
    detail := none
    validationsTimedOut := false }

/-- The fields of a segment's result. -/
def record : Record SegmentResult :=
  SegmentResult.mk <$> .field "list_name" .text <*> .field "segment_name" .text
    <*> .field "segment_number" .count <*> .field "outcome" Outcome.decoder
    <*> .field "required" .bool <*> .field "passed" .bool <*> .field "elapsed_s" .float
    <*> .field "ticks" .uint64 <*> .fieldMaybe "detail" .text
    <*> .fieldOr "validations_timed_out" .bool false

/-- Reads a segment's result. -/
def decoder : Decoder SegmentResult := record.decoder "struct SegmentResult"

/-- A segment's result as a document. -/
def toValue (r : SegmentResult) : Value :=
  .obj ([("list_name", .str r.listName), ("segment_name", .str r.segmentName),
      ("segment_number", .int (.ofUInt64 r.segmentNumber)), ("outcome", .str r.outcome.name),
      ("required", .bool r.isRequired), ("passed", .bool r.passed),
      ("elapsed_s", .ofFloat r.elapsed), ("ticks", .int (.ofUInt64 r.ticks))]
    ++ (r.detail.map fun d => ("detail", .str d)).toList
    ++ [("validations_timed_out", .bool r.validationsTimedOut)])

end SegmentResult

namespace RunResult

/-- The segments in the order of their numbers; equal numbers stay as they are. -/
def ordered (r : RunResult) : List SegmentResult :=
  r.segments.mergeSort fun a b => a.segmentNumber ≤ b.segmentNumber

/-- The bytes that identify a played sequence: all names, one directly after the other. -/
def fingerprintBytes (r : RunResult) : List UInt8 :=
  r.sequenceName.toUTF8.toList
    ++ r.ordered.flatMap fun s => s.listName.toUTF8.toList ++ s.segmentName.toUTF8.toList

/-- The **fingerprint** of a played sequence. -/
def fingerprint (r : RunResult) : String := Digest.hex (Digest.ofBytes r.fingerprintBytes)

/-- How many segments ended in a way. -/
def countOutcome (r : RunResult) (outcome : Outcome) : Nat :=
  r.segments.countP fun s => s.outcome == outcome

/-- The first segment that should have passed and did not. -/
def firstFailure? (r : RunResult) : Option SegmentResult :=
  r.segments.find? fun s => s.isRequired && !s.passed

/-- The fields of a run's result. -/
def record : Record RunResult :=
  RunResult.mk <$> .field "run_id" .text <*> .field "sequence_name" .text
    <*> .field "started_at" .int64 <*> .field "duration_s" .float <*> .field "success" .bool
    <*> .field "save_location" (.text "path string") <*> .field "segments"
      SegmentResult.decoder.list

/-- Reads a run's result. -/
def decoder : Decoder RunResult := record.decoder "struct PlaybackResult"

/-- A run's result as a document. -/
def toValue (r : RunResult) : Value :=
  .obj [("run_id", .str r.runId), ("sequence_name", .str r.sequenceName),
    ("started_at", .int (.ofInt64 r.startedAt)), ("duration_s", .ofFloat r.duration),
    ("success", .bool r.success), ("save_location", .str r.saveLocation),
    ("segments", .arr (r.segments.map SegmentResult.toValue))]

/-- The line of text under which a result is stored, without its line break. -/
def render (r : RunResult) : String := r.toValue.render

end RunResult

end Playtest
