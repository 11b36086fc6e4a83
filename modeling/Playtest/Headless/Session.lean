import Playtest.Assignment.Run
import Playtest.Config.Reader
import Playtest.Headless.Options
import Playtest.Recording.Frames
import Playtest.Result.Store

/-!
# Playing against a recording

A session does what a command line asks for: it reads settings and a recording, plays a playlist or
works on an assignment with one frame per tick, and puts the result at the end of the file of
results. Nothing can be sent to a recording, so every action is only logged. What has not ended when
the recording does is ended then.

* `Session.run` is the whole session; its outcome holds what is printed, logged and written.
-/

namespace Playtest.Headless

open Playtest.Calendar Playtest.Json Playtest.Resource Playtest.Scene

/-- What a session gets from outside besides its command line and files. -/
structure Surroundings where
  files : Tree
  /-- The file of results, if it is not the usual one. -/
  resultsPath : Option String
  /-- The run id of a playlist, if none is asked for. -/
  runId : String
  /-- What makes the run id of an assignment one of its kind. -/
  mark : String
  /-- Seconds since 1970 at which results say that a run began. -/
  startedAt : Int64
  /-- Where the clock of an assignment stands before the first frame. -/
  now : Instant

/-- Why a session cannot go on. -/
inductive SessionError where
  | configUnreadable (path : String) (fault : FileFault)
  | configRejected (path : String)
  | framesUnopened (path : String) (fault : FileFault)
  | framesUnreadable (path : String) (fault : FileFault)
  | badFrame (path : String) (line : Recording.BadLine)
  | assignmentUnreadable (path : String) (fault : FileFault)
  | assignmentInvalid (path : String) (reason : DecodeError)
  | resultUnwritten (path : String) (fault : FileFault)

namespace SessionError

/-- What the session was about to do, from the outside in. -/
def contexts : SessionError → List String
  | .configUnreadable path _ => [s!"Failed to read playback config {path}"]
  | .configRejected path =>
      [s!"Failed to load playback config {path}", Config.rejectedMessage]
  | .framesUnopened path _ => [s!"Failed to open frames file {path}"]
  | .framesUnreadable path _ => [s!"Failed to read frames from {path}"]
  | .badFrame path line => [s!"Failed to read frames from {path}", line.context]
  | .assignmentUnreadable path _ => [s!"Failed to read work assignment {path}"]
  | .assignmentInvalid path _ => [s!"Invalid work assignment {path}"]
  | .resultUnwritten path _ => [s!"Failed to write playback result to {path}"]

/-- The fault of a file. -/
def fileFault? : SessionError → Option FileFault
  | .configUnreadable _ fault | .framesUnopened _ fault | .framesUnreadable _ fault
  | .assignmentUnreadable _ fault | .resultUnwritten _ fault => some fault
  | .configRejected _ | .badFrame _ _ | .assignmentInvalid _ _ => none

/-- What is wrong with a document. -/
def decodeError? : SessionError → Option DecodeError
  | .badFrame _ line => some line.reason
  | .assignmentInvalid _ reason => some reason
  | .configUnreadable _ _ | .configRejected _ | .framesUnopened _ _ | .framesUnreadable _ _
  | .assignmentUnreadable _ _ | .resultUnwritten _ _ => none

/-- What is wrong, from the outside in. -/
def texts (e : SessionError) : List String :=
  e.contexts ++ (e.fileFault?.map FileFault.message).toList
    ++ (e.decodeError?.map DecodeError.message).toList

end SessionError

/-- How a session ends. -/
inductive Ending where
  | success
  | runFailed
  | nothingToRun
  /-- Something could not be loaded. -/
  | loadFailure
  | error (error : SessionError)
  /-- The clock has left the range of instants. -/
  | clockOverflow (isDuration : Bool)

/-- The exit code of a session. -/
def Ending.exitCode : Ending → UInt8
  | .success => 0
  | .runFailed => 1
  | .nothingToRun => 2
  | .loadFailure | .error _ => 4
  | .clockOverflow _ => 101

/-- The wording of a clock that has left its range. -/
def clockMessage (isDuration : Bool) : String :=
  if isDuration then "TimeDelta::milliseconds out of bounds"
    else "`DateTime + TimeDelta` overflowed"

/-- What comes of a session. -/
structure SessionOutcome where
  ending : Ending
  /-- The result that was put into the file of results. -/
  stored : Option RunResult
  files : Tree
  printed : String
  messages : List LogMessage

/-- The file of results. -/
def Surroundings.resultsFile (s : Surroundings) : String := s.resultsPath.getD "rg_results.jsonl"

namespace Session

/-- A session that ends before anything is written. -/
def stop (s : Surroundings) (ending : Ending) (messages : List LogMessage) : SessionOutcome :=
  ⟨ending, none, s.files, "", messages⟩

/-! ### Input -/

/-- The settings of a file. -/
def settingsIn (t : Tree) (path : String) : Except SessionError Config :=
  match t.read path with
  | .error fault => .error (.configUnreadable path fault)
  | .ok text =>
      match Config.ofText? text with
      | some c => .ok c
      | none => .error (.configRejected path)

/-- The settings with what the command line says instead. -/
def overridden (o : Options) (c : Config) : Config :=
  { c with
    resourceRoot := o.resourceRoot.getD c.resourceRoot
    timeout := o.timeout.or c.timeout }

/-- The settings of a session. -/
def settings (o : Options) (t : Tree) : Except SessionError Config :=
  ((o.config.elim (.ok .default) (settingsIn t))).map (overridden o)

/-- The frames in a file. -/
def framesIn (t : Tree) (path : String) : Except SessionError (List Frame) :=
  match t.readLines path with
  | .error fault => .error (.framesUnopened path fault)
  | .ok (text, fault) =>
      match Recording.framesOf text, fault with
      | .error line, _ => .error (.badFrame path line)
      | .ok _, some fault => .error (.framesUnreadable path fault)
      | .ok frames, none => .ok frames

/-- The environment for a recording. -/
def environment : Environment := .of (Registry.empty.withFallback .logged)

/-! ### Results -/

/-- What is printed by a reporter. -/
def printedBy (reporter : Option Report.Reporter) : String :=
  match reporter with
  | some r => r.printed
  | none => ""

/-- Puts a result into the file of results, and ends the session. -/
def store (s : Surroundings) (result : RunResult) (isSuccess : Bool) (printed : String)
    (messages : List LogMessage) : SessionOutcome :=
  let path := s.resultsFile
  match result.appendTo s.files path with
  | .error fault => ⟨.error (.resultUnwritten path fault), none, s.files, printed, messages⟩
  | .ok files =>
      ⟨if isSuccess then .success else .runFailed, some result, files, printed,
        messages ++ [⟨.info, s!"Playback result for run {result.runId} written to {path}"⟩]⟩

/-! ### Playlists -/

/-- Plays frames until the run has ended. `signal` is not sent as long as there are frames. -/
def playFrames (frameDelta : Float) (signal : Abort.Signal) :
    (previous : Option Frame) → List Frame → PlaybackRun → Environment → Turn PlaybackRun
  | _, [], run, env => .still run env
  | previous, frame :: rest, run, env =>
      let delta := Recording.timeBetween previous frame frameDelta
      (run.tick ⟨delta, frame, signal⟩ env).andThen fun run env =>
        if run.isFinished then .still run env
        else playFrames frameDelta signal (some frame) rest run env

/-- Ends a run that is still going on when the recording has ended. -/
def endPlayback (signal : Abort.Signal) (last : Frame) (run : PlaybackRun) (env : Environment) :
    Turn PlaybackRun :=
  if run.isFinished then .still run env
  else
    let (signal, messages) := signal.abort
    (⟨run, env, ⟨.warn, s!"Recording ended before `{run.sequenceName}` finished"⟩ :: messages⟩ :
      Turn PlaybackRun).andThen fun run env =>
        (run.tick ⟨0.0, last, signal⟩ env).andThen (PlaybackRun.abort "Recording ended")

/-- Plays a playlist. -/
def playPlaylist (o : Options) (s : Surroundings) (c : Config) (frames : List Frame)
    (p : Playlist) : SessionOutcome :=
  let (listener, signal) := Abort.Signal.fresh.listen
  let run := ((PlaybackRun.of p c (o.runId.getD s.runId) s.startedAt).withListener
    listener).withReporter (.of o.reporter)
  let starting : LogMessage := ⟨.info, s!"Playing `{p.name}`: {p.segments.length} segments in "
    ++ s!"{p.lists.length} lists against {frames.length} frames"⟩
  let played := (playFrames o.frameDelta signal none frames run environment).andThen
    (endPlayback signal (frames.getLast?.getD .empty))
  let messages := starting :: played.messages
  match played.subject.result with
  | none => stop s .nothingToRun messages
  | some result => store s result result.success (printedBy played.subject.reporter) messages

/-- Plays what is under a resource path. -/
def playSequence (o : Options) (s : Surroundings) (c : Config) (frames : List Frame)
    (path : String) : SessionOutcome :=
  match (Loader.mk c.resourceRoot s.files).playlist path with
  | .error e =>
      stop s .loadFailure [⟨.error, s!"Failed to load `{path}`: {e.causes.report}"⟩]
  | .ok p =>
      if p.segments.isEmpty then
        stop s .nothingToRun [⟨.warn, s!"`{p.name}` has no segments, nothing to play"⟩]
      else playPlaylist o s c frames p

/-! ### Assignments -/

/-- Where the clock stands after a time: the instant, or whether it is the time itself that is out
of range. -/
def clockAt (started : Instant) (clock : Float) : Except Bool Instant :=
  let ms := Number.wholePartWithin Int64.minValue.toInt Int64.maxValue.toInt (clock * 1000.0)
  if ms = Int64.minValue.toInt then .error true
  else
    match started.addMilliseconds? ms with
    | some now => .ok now
    | none => .error false

/-- Works on an assignment, one frame after another, until it has ended. -/
def workFrames (frameDelta : Float) (started : Instant) :
    (previous : Option Frame) → (clock : Float) → List Frame → AssignmentRun → Environment →
      Except Bool (Turn AssignmentRun)
  | _, _, [], run, env => .ok (.still run env)
  | previous, clock, frame :: rest, run, env =>
      let delta := Recording.timeBetween previous frame frameDelta
      match clockAt started (clock + delta) with
      | .error isDuration => .error isDuration
      | .ok now =>
          let ticked := run.tick now ⟨delta, frame, .fresh⟩ env
          if ticked.subject.status.isTerminal then .ok ticked
          else
            (workFrames frameDelta started (some frame) (clock + delta) rest ticked.subject
              ticked.env).map fun t => { t with messages := ticked.messages ++ t.messages }

/-- Cancels an assignment that is still going on when the recording has ended. -/
def endAssignment (run : AssignmentRun) (env : Environment) : Turn AssignmentRun :=
  if run.status.isTerminal then .still run env
  else
    let cancelled := { run.assignment with remoteStatus := some Status.cancelled.name }
    (Turn.saying .warn
      s!"Recording ended before work assignment {run.assignment.id.toInt} finished" run env).andThen
      (AssignmentRun.update cancelled)

/-- How a session ends whose assignment has no result. -/
def endingWithout (status : Status) : Ending :=
  match status with
  | .completed => .success
  | .failed => .loadFailure
  | .pending | .running | .cancelled => .nothingToRun

/-- Works on an assignment. -/
def playAssignment (o : Options) (s : Surroundings) (c : Config) (frames : List Frame)
    (a : Assignment) (messages : List LogMessage) : SessionOutcome :=
  let run := (AssignmentRun.of a c s.files s.mark s.startedAt).withReporter
    (.of o.reporter)
  let starting : LogMessage :=
    ⟨.info, s!"Playing work assignment {a.id.toInt} for `{a.resourcePath}`"⟩
  match workFrames o.frameDelta s.now none 0.0 frames run environment with
  | .error isDuration => stop s (.clockOverflow isDuration) (messages ++ [starting])
  | .ok worked =>
      let ended := worked.andThen endAssignment
      let run := ended.subject
      let report := run.report
      let messages := messages ++ starting :: ended.messages ++
        [⟨.info, s!"Work assignment report: {report.toValue.render}"⟩]
      match run.result with
      | none => stop s (endingWithout report.status) messages
      | some result =>
          store s result (report.status == .completed)
            (printedBy (run.playback.bind (·.reporter))) messages

/-- Reads an assignment and works on it. -/
def readAssignment (o : Options) (s : Surroundings) (c : Config) (frames : List Frame)
    (path : String) : SessionOutcome :=
  match s.files.read path with
  | .error fault => stop s (.error (.assignmentUnreadable path fault)) []
  | .ok json =>
      match Assignment.decoder.ofText json with
      | .error reason => stop s (.error (.assignmentInvalid path reason)) []
      | .ok (a, messages) => playAssignment o s c frames a messages

/-! ### The session -/

/-- **Does what a command line asks for.** -/
def run (o : Options) (s : Surroundings) : SessionOutcome :=
  match settings o s.files with
  | .error e => stop s (.error e) []
  | .ok c =>
      match framesIn s.files o.frames with
      | .error e => stop s (.error e) []
      | .ok [] =>
          stop s .nothingToRun [⟨.warn, s!"No frames in {o.frames}, nothing to play"⟩]
      | .ok frames =>
          match o.sequence, o.assignment with
          | some path, _ => playSequence o s c frames path
          | none, some path => readAssignment o s c frames path
          | none, none => stop s .nothingToRun []

/-- The resource path of what is to be played, as far as it is known. -/
def resourcePath? (o : Options) (t : Tree) : Option String :=
  match o.sequence with
  | some path => some path
  | none =>
      (o.assignment.bind fun path => (t.read path).toOption).bind fun json =>
        (Assignment.decoder.ofText json).toOption.map fun read => read.1.resourcePath

/-- The files that a session looks at, as far as that can be told from the ones that are there. -/
def wanted (o : Options) (s : Surroundings) : List String :=
  o.config.toList ++ [o.frames, s.resultsFile] ++ o.assignment.toList
    ++ (match settings o s.files, resourcePath? o s.files with
      | .ok c, some path => (Loader.mk c.resourceRoot s.files).filesFor path
      | _, _ => [])

end Session

end Playtest.Headless
