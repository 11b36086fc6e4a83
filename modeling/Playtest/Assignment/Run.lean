import Playtest.Assignment.Basic
import Playtest.Playback.Run
import Playtest.Resource.Loader

/-!
# Working on an assignment

An assignment waits for its start time, loads its playlist, and is then worked on one tick at a time
until the playlist has ended, the assignment's time is up, or the remote side cancels it. Whatever
is wrong with the playlist is reported as a failure of the assignment.

* `AssignmentRun.tick` does what is to be done on one tick,
* `AssignmentRun.update` takes a status from the remote side,
* `AssignmentRun.report` is what the remote side is told.
-/

namespace Playtest

open Playtest.Calendar Playtest.Json

/-- The **run of an assignment**. -/
structure AssignmentRun where
  assignment : Assignment
  loader : Resource.Loader
  config : Config
  /-- What makes the run id of the playback one of its kind. -/
  mark : String
  /-- Seconds since 1970 at which the playback begins. -/
  startedAt : Int64
  reporter : Option Report.Reporter
  playback : Option PlaybackRun
  elapsed : Float
  details : Option Value
  result : Option RunResult

namespace AssignmentRun

/-- The run of an assignment that nobody has begun to work on. -/
def of (a : Assignment) (c : Config) (tree : Resource.Tree) (mark : String) (startedAt : Int64) :
    AssignmentRun :=
  { assignment := { a with status := .pending }
    loader := ⟨c.resourceRoot, tree⟩
    config := c
    mark, startedAt
    reporter := none
    playback := none
    elapsed := 0.0
    details := none
    result := none }

/-- The run with a reporter for its playback. -/
def withReporter (r : AssignmentRun) (reporter : Report.Reporter) : AssignmentRun :=
  { r with reporter := some reporter }

/-- How far the assignment is. -/
def status (r : AssignmentRun) : Status := r.assignment.status

/-- What the remote side is told. -/
def report (r : AssignmentRun) : Report := r.assignment.report r.details

/-- The run id of the playback. -/
def runId (r : AssignmentRun) : String := s!"assignment-{r.assignment.id.toInt}-{r.mark}"

/-- Changes the status. -/
def turnTo (status : Status) (r : AssignmentRun) (env : Environment) : Turn AssignmentRun :=
  if r.status = status then .still r env
  else
    .saying .info s!"Work assignment {r.assignment.id.toInt} {r.status.name} -> {status.name}"
      { r with assignment := { r.assignment with status } } env

/-- Fails the assignment with a reason that is reported. -/
def failWith (reason : String) (r : AssignmentRun) (env : Environment) : Turn AssignmentRun :=
  turnTo .failed { r with details := some (Report.errorDetails reason) } env

/-- Loads the playlist. -/
def start (r : AssignmentRun) (env : Environment) : Turn AssignmentRun :=
  let path := r.assignment.resourcePath
  match r.loader.playlist path with
  | .error e =>
      (Turn.saying .error (s!"Work assignment {r.assignment.id.toInt} failed to load `{path}`: "
        ++ e.causes.report) r env).andThen
        (failWith s!"Failed to load BotSequence from path: {path}. {e.causes.line}")
  | .ok playlist =>
      let playback := PlaybackRun.of playlist r.config r.runId r.startedAt
      let playback := match r.reporter with
        | some reporter => playback.withReporter reporter
        | none => playback
      turnTo .running { r with playback := some playback } env

/-- Ends an assignment whose time is up. -/
def timeOut (timeout : Float) (p : PlaybackRun) (r : AssignmentRun) (env : Environment) :
    Turn AssignmentRun :=
  let reason := s!"timed out after {Number.display timeout}s"
  (((Turn.saying .warn s!"Work assignment {r.assignment.id.toInt} {reason}" p env).andThen
    (PlaybackRun.abort reason)).map fun p =>
      { r with playback := some p, result := p.result }).andThen (failWith reason)

/-- The details of a playback that was no success. -/
def failureDetails (result : RunResult) : Option Value :=
  result.firstFailure?.map fun failure =>
    Report.errorDetails s!"Segment `{failure.segmentName}` ended {failure.outcome.name}"

/-- Ends the assignment with the result of its playback. -/
def settle (result : RunResult) (r : AssignmentRun) (env : Environment) : Turn AssignmentRun :=
  if result.success then turnTo .completed { r with result := some result } env
  else
    turnTo .failed { r with
      result := some result
      details := (failureDetails result).or r.details } env

/-- Plays a tick of the playback. -/
def play (b : Beat) (p : PlaybackRun) (r : AssignmentRun) (env : Environment) :
    Turn AssignmentRun :=
  (p.tick b env).andThen fun p env =>
    let r := { r with playback := some p, elapsed := p.elapsed }
    match p.result with
    | some result => settle result r env
    | none => .still r env

/-- Works on a running assignment. -/
def work (b : Beat) (r : AssignmentRun) (env : Environment) : Turn AssignmentRun :=
  match r.playback with
  | none => turnTo .failed r env
  | some p =>
      match r.assignment.timeout.filter fun t => t ≤ r.elapsed with
      | some timeout => timeOut timeout p r env
      | none => play b p r env

/-- **Does what is to be done on one tick.** An assignment that has ended stays as it is. -/
def tick (now : Instant) (b : Beat) (r : AssignmentRun) (env : Environment) : Turn AssignmentRun :=
  match r.status with
  | .pending => if r.assignment.isDue now then start r env else .still r env
  | .running => work b r env
  | .completed | .cancelled | .failed => .still r env

/-- Cancels the assignment, and with it a playback that is under way. -/
def cancel (r : AssignmentRun) (env : Environment) : Turn AssignmentRun :=
  match r.playback with
  | none => turnTo .cancelled r env
  | some p =>
      ((p.abort "Work assignment cancelled" env).map fun p =>
        { r with playback := some p, result := p.result }).andThen (turnTo .cancelled)

/-- How messages show a remote status. -/
def describeRemote : Option String → String
  | some status => s!"Some({Text.quoted status})"
  | none => "None"

/-- **Takes what the remote side says** about an assignment. It can only cancel this one, as long as
it has not ended; everything else is ignored. -/
def update (sent : Assignment) (r : AssignmentRun) (env : Environment) : Turn AssignmentRun :=
  let id := r.assignment.id.toInt
  if sent.id ≠ r.assignment.id then
    .saying .warn s!"Ignoring update for work assignment {sent.id.toInt} while running {id}" r env
  else
    let r := { r with assignment := { r.assignment with remoteStatus := sent.remoteStatus } }
    if !sent.isCancelRequested then
      .saying .info (s!"Ignoring remote status {describeRemote sent.remoteStatus} for work "
        ++ s!"assignment {id}") r env
    else if r.status.isTerminal then
      .saying .info s!"Work assignment {id} is already {r.status.name}, ignoring cancellation" r env
    else cancel r env

end AssignmentRun

end Playtest
