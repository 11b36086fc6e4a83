import Playtest.Abort
import Playtest.Config.Basic
import Playtest.Playback.ListRun
import Playtest.Playback.Playlist
import Playtest.Report.Reporter
import Playtest.Resource.Path

/-!
# Playing a playlist

The host gives a run one frame per tick. The frame becomes a snapshot, and every active list plays a
tick with it: the first list that has not finished, and the ones behind it as long as the lists in
front of them are parallel. All lists of a tick see the same key frame, which is the snapshot of the
last tick before on which a segment was completed.

A run ends when all lists have, or at once when it is aborted, its time is up, or a required segment
did not complete. It keeps its result, and from then on nothing happens any more.

* `PlaybackRun.tick` plays one tick, and `PlaybackRun.abort` ends the run from outside,
* `PlaybackRun.result` is there when the run has ended.
-/

namespace Playtest

open Playtest.Scene

/-- What the host has for a tick. -/
structure Beat where
  /-- Seconds since the tick before. -/
  delta : Float
  frame : Frame
  signal : Abort.Signal

/-- The **run of a playlist**. -/
structure PlaybackRun where
  runId : String
  sequenceName : String
  /-- Seconds since 1970. -/
  startedAt : Int64
  timeout : Option Float
  outputDir : String
  lists : List ListRun
  keyFrame : Option Snapshot
  /-- Seconds since the first tick. -/
  elapsed : Float
  ticks : Nat
  listener : Option Abort.Listener
  reporter : Option Report.Reporter
  /-- The required segment that ended the run, if one did. -/
  failure : Option String
  result : Option RunResult

namespace PlaybackRun

/-- The runs of the segments of a list, of which `number` is the first one's. -/
def segmentRuns (c : Config) (list : String) : (number : Nat) → List Segment → List SegmentRun
  | _, [] => []
  | number, s :: rest =>
      let isRequired := !c.isOptionalList list && !c.isOptionalSegment s.name
      .of s list number isRequired :: segmentRuns c list (number + 1) rest

/-- The runs of some lists, of which `number` is the first segment's. -/
def listRuns (c : Config) : (number : Nat) → List SegmentList → List ListRun
  | _, [] => []
  | number, l :: rest =>
      { name := l.name
        isOptional := c.isOptionalList l.name
        isParallel := c.isParallelList l.name
        played := []
        ahead := segmentRuns c l.name number l.segments
        state := .notStarted } :: listRuns c (number + l.segments.length) rest

/-- A run that has not begun. -/
def of (p : Playlist) (c : Config) (runId : String) (startedAt : Int64) : PlaybackRun :=
  { runId, startedAt
    sequenceName := p.name
    timeout := c.timeout?
    outputDir := c.outputDir
    lists := listRuns c 1 p.lists
    keyFrame := none
    elapsed := 0.0
    ticks := 0
    listener := none
    reporter := none
    failure := none
    result := none }

/-- The run with another time limit. -/
def withTimeout (r : PlaybackRun) (timeout : Option Float) : PlaybackRun :=
  { r with timeout := Config.limit? timeout }

/-- The run with something that listens for a signal to abort. -/
def withListener (r : PlaybackRun) (listener : Abort.Listener) : PlaybackRun :=
  { r with listener := some listener }

/-- The run with a reporter. -/
def withReporter (r : PlaybackRun) (reporter : Report.Reporter) : PlaybackRun :=
  { r with reporter := some reporter }

/-- All segments, in the order of their numbers. -/
def segments (r : PlaybackRun) : List SegmentRun := r.lists.flatMap ListRun.segments

/-- Whether the run has ended. -/
def isFinished (r : PlaybackRun) : Bool := r.result.isSome

/-! ### The end -/

/-- What the run has come to. Only a run that was not broken off can be a success. -/
def outcome (ranThrough : Bool) (r : PlaybackRun) : RunResult :=
  let segments := r.segments.map SegmentRun.result
  { runId := r.runId
    sequenceName := r.sequenceName
    startedAt := r.startedAt
    duration := r.elapsed
    success := ranThrough && segments.all fun s => !s.isRequired || s.passed
    saveLocation := Resource.joinPath r.outputDir r.runId
    segments }

/-- What is said about a result. -/
def ending (r : PlaybackRun) (result : RunResult) : LogMessage :=
  let time := Number.fixed 2 r.elapsed
  if result.success then ⟨.info, s!"Playback of `{r.sequenceName}` succeeded after {time}s"⟩
  else
    let cause := match r.failure with
      | some failure => s!": {failure}"
      | none => ""
    ⟨.warn, s!"Playback of `{r.sequenceName}` failed after {time}s{cause}"⟩

/-- Ends the run with the result that it has by now. -/
def finish (ranThrough : Bool) (r : PlaybackRun) (env : Environment) : Turn PlaybackRun :=
  let result := r.outcome ranThrough
  ⟨{ r with
      reporter := r.reporter.map fun reporter => reporter.addAll result.segments
      result := some result }, env, [r.ending result]⟩

/-- Ends one list after another from outside. -/
def abortLists (reason : String) : List ListRun → Environment → Turn (List ListRun)
  | [], env => .still [] env
  | l :: rest, env =>
      (l.abort reason env).andThen fun l env => (abortLists reason rest env).map (l :: ·)

/-- Breaks the run off. -/
def breakOff (reason : String) (r : PlaybackRun) (env : Environment) : Turn PlaybackRun :=
  ((Turn.saying .warn s!"Aborting playback of `{r.sequenceName}`: {reason}" r env).andThen
    fun r env => (abortLists reason r.lists env).map fun lists => { r with lists }).andThen
    (finish false)

/-- **Ends the run from outside.** -/
def abort (reason : String) (r : PlaybackRun) (env : Environment) : Turn PlaybackRun :=
  if r.isFinished then .still r env else breakOff reason r env

/-! ### Ticks -/

/-- What has come of the active lists in one tick. -/
structure ListTicks where
  lists : List ListRun
  /-- Whether a segment was completed. -/
  isKeyFrame : Bool
  /-- The required segment that did not complete. -/
  fatal : Option String

/-- Puts a list in front of what has come of the ones behind it. -/
def ListTicks.cons (l : ListRun) (isKeyFrame : Bool) (t : ListTicks) : ListTicks :=
  { t with lists := l :: t.lists, isKeyFrame := isKeyFrame || t.isKeyFrame }

/-- Plays a tick of every active list. Nothing behind a required segment that did not complete is
played any more. -/
def tickLists (m : Moment) : List ListRun → Environment → Turn ListTicks
  | [], env => .still ⟨[], false, none⟩ env
  | l :: rest, env =>
      if l.isFinished then (tickLists m rest env).map (.cons l false)
      else
        (l.tick m env).andThen fun (ticked, event) env =>
          match event with
          | .fatal reason => .still ⟨ticked :: rest, false, some reason⟩ env
          | .running | .keyFrame | .finished =>
              if l.isParallel then
                (tickLists m rest env).map (.cons ticked (event == .keyFrame))
              else .still ⟨ticked :: rest, event == .keyFrame, none⟩ env

/-- Counts a tick. Time is counted from the first tick on. -/
def counted (delta : Float) (r : PlaybackRun) : PlaybackRun :=
  { r with
    elapsed := if r.ticks = 0 then r.elapsed else r.elapsed + forward delta
    ticks := r.ticks + 1 }

/-- The environment in which a tick is played. The first tick forgets what earlier runs have
left. -/
def prepared (r : PlaybackRun) (env : Environment) : Environment :=
  if r.ticks = 0 then env.reset else env

/-- What is said when a run begins. -/
def beginning (r : PlaybackRun) : List LogMessage :=
  if r.ticks = 0 then
    [⟨.info, s!"Starting playback of `{r.sequenceName}` with run id {r.runId}"⟩]
  else []

/-- Looks for a signal to abort. -/
def listened (signal : Abort.Signal) (r : PlaybackRun) : PlaybackRun :=
  { r with listener := r.listener.map (·.look signal) }

/-- Why the run has to be broken off before any list plays its tick. -/
def obstacle? (r : PlaybackRun) : Option String :=
  if r.listener.any (·.isAborted) then some Abort.message
  else
    r.timeout.bind fun timeout =>
      if timeout ≤ r.elapsed then some s!"Sequence timed out after {Number.display timeout}s"
      else none

/-- Takes over what has come of the lists. -/
def takeOver (snapshot : Snapshot) (r : PlaybackRun) (t : ListTicks) : PlaybackRun :=
  { r with
    lists := t.lists
    failure := t.fatal
    keyFrame := if t.isKeyFrame && t.fatal.isNone then some snapshot else r.keyFrame }

/-- Plays a tick of the lists, and ends the run if there is nothing more to play. -/
def advance (delta : Float) (snapshot : Snapshot) (r : PlaybackRun) (env : Environment) :
    Turn PlaybackRun :=
  (tickLists ⟨delta, snapshot, r.keyFrame⟩ r.lists env).andThen fun t env =>
    let r := r.takeOver snapshot t
    match t.fatal with
    | some reason => (Turn.saying .error reason r env).andThen (breakOff reason)
    | none => if r.lists.all ListRun.isFinished then finish true r env else .still r env

/-- **Plays one tick.** A run that has ended stays as it is. -/
def tick (b : Beat) (r : PlaybackRun) (env : Environment) : Turn PlaybackRun :=
  if r.isFinished then .still r env
  else
    let ready := r.prepared env
    let (snapshot, resolver, messages) := ready.resolver.resolve b.frame
    let begun : Turn PlaybackRun := ⟨(r.counted b.delta).listened b.signal,
      { ready with resolver }, r.beginning ++ messages⟩
    begun.andThen fun r env =>
      match r.obstacle? with
      | some reason => breakOff reason r env
      | none => advance b.delta snapshot r env

end PlaybackRun

end Playtest
