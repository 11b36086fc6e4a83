import Playtest.Clock
import Playtest.Environment
import Playtest.Result.Basic
import Playtest.Segment.Basic
import Playtest.Segment.State

/-!
# Playing a segment

One segment, one tick at a time. A tick does at most one thing of each kind: it looks at the
criteria of the phase that the segment is in, starts the action on the tick after the entry criteria
held, and polls a started action until it is complete. The criteria have the last word over the
timeout: a segment that completes on the tick on which its time is up is complete.

* `SegmentRun.tick` plays one tick,
* `SegmentRun.abort` and `SegmentRun.skip` end a segment from outside,
* `SegmentRun.result` is what the segment's run has come to.
-/

namespace Playtest

open Playtest.Scene

/-- What is the same for everything that is looked at during one tick. -/
structure Moment where
  /-- Seconds since the tick before. -/
  delta : Float
  snapshot : Snapshot
  /-- The snapshot of the tick on which a segment was last completed. -/
  keyFrame : Option Snapshot

/-- The **run of a segment**. -/
structure SegmentRun where
  segment : Segment
  listName : String
  /-- The position of the segment in the whole run, counted from one. -/
  number : Nat
  isRequired : Bool
  state : SegmentState
  /-- Every state that was entered, with the tick on which it was. -/
  history : List (SegmentState × Nat)
  ticks : Nat
  /-- Seconds since the first tick. -/
  elapsed : Float
  isDispatched : Bool
  isActionComplete : Bool
  /-- The transient criteria that were met. -/
  latched : List Key
  validationsTimedOut : Bool
  /-- What the segment was last seen waiting for. -/
  lastUnmet : Option String
  /-- Why the segment did not complete. -/
  detail : Option String

namespace SegmentRun

/-- A segment that has not begun. -/
def of (segment : Segment) (listName : String) (number : Nat) (isRequired : Bool) : SegmentRun :=
  { segment, listName, number, isRequired
    state := .pending
    history := []
    ticks := 0
    elapsed := 0.0
    isDispatched := false
    isActionComplete := false
    latched := []
    validationsTimedOut := false
    lastUnmet := none
    detail := none }

/-- The segment's name. -/
def name (r : SegmentRun) : String := r.segment.name

/-- Completed, and not because a wait for validations ran out. -/
def passed (r : SegmentRun) : Bool := r.state == .completed && !r.validationsTimedOut

/-- What all keys of a phase begin with. -/
def key (r : SegmentRun) (phase : Phase) : Key := s!"{r.number}/{phase.name}"

/-- The criteria of a phase. -/
def criteria (r : SegmentRun) : Phase → List Criteria
  | .entry => r.segment.entryCriteria
  | .completion => r.segment.endCriteria

/-- How the criteria of a phase belong together. -/
def join (r : SegmentRun) : Phase → Join
  | .entry => .all
  | .completion => r.segment.endJoin

/-! ### Changes of state -/

/-- Enters a state. -/
def enter (state : SegmentState) (r : SegmentRun) (env : Environment) : Turn SegmentRun :=
  (Turn.saying .debug s!"Segment `{r.name}` {r.state.name} -> {state.name} on tick {r.ticks}" r
    env).map fun r => { r with state, history := r.history ++ [(state, r.ticks)] }

/-- Ends the segment because something is wrong. -/
def fail (reason : String) (r : SegmentRun) (env : Environment) : Turn SegmentRun :=
  (Turn.saying .error s!"Segment `{r.name}` failed: {reason}" { r with detail := some reason }
    env).andThen (enter .failed)

/-! ### Criteria -/

/-- What the criteria of a segment may look at. -/
def view (r : SegmentRun) (m : Moment) (env : Environment) : View where
  snapshot := m.snapshot
  keyFrame := m.keyFrame
  actionComplete := r.isActionComplete
  reply := env.vision.reply
  pendingValidations := env.pendingValidations.pending env.calls r.number
  elapsed := r.elapsed
  predicate := env.registry.predicate?
  latched := r.latched

/-- Takes down what evaluating criteria has brought. -/
def noted (r : SegmentRun) (status : CriteriaStatus) (latched : List Key) : SegmentRun :=
  { r with
    latched := r.latched ++ latched
    lastUnmet := status.reason?
    validationsTimedOut := r.validationsTimedOut || status == .resolvedByTimeout }

/-- Sends the vision requests of a phase. -/
def askVision (phase : Phase) (m : Moment) (r : SegmentRun) (env : Environment) : Turn SegmentRun :=
  let (vision, messages) := env.vision.prepare (r.key phase) (r.criteria phase) m.snapshot
  ⟨r, { env with vision }, messages⟩

/-- Abandons the vision requests of a phase. -/
def releaseVision (phase : Phase) (r : SegmentRun) (env : Environment) : Turn SegmentRun :=
  .still r { env with vision := env.vision.release (r.key phase) }

/-- Evaluates the criteria of a phase, and enters the next state if they hold. -/
def judge (phase : Phase) (m : Moment) (r : SegmentRun) (env : Environment) : Turn SegmentRun :=
  let (status, notes) := Criteria.evaluateAll (r.view m env) (r.key phase) (r.criteria phase)
    (r.join phase)
  let seen : Turn SegmentRun := ⟨r, env, notes.messages⟩
  match status with
  | .error e => seen.andThen (fail s!"criteria evaluation failed: {e.message}")
  | .ok status =>
      let seen := seen.map fun r => r.noted status notes.latched
      if status.isSatisfied then (seen.andThen (releaseVision phase)).andThen (enter phase.next)
      else seen

/-- Waits for the criteria of a phase. -/
def await (phase : Phase) (m : Moment) (r : SegmentRun) (env : Environment) : Turn SegmentRun :=
  (askVision phase m r env).andThen (judge phase m)

/-! ### The action -/

/-- Starts the action with a handler. -/
def start (handler : HandlerName × Handler) (action : Action) (targets : List Entity) (m : Moment)
    (r : SegmentRun) (env : Environment) : Turn SegmentRun :=
  let call : Call := .start handler.1 r.number action targets m.snapshot
  let answer := handler.2.start env.calls r.number action targets m.snapshot
  let r := { r with isDispatched := true }
  let started : Turn SegmentRun := ⟨r, env.called call,
    ⟨.info, s!"Segment `{r.name}` starting action `{action.type}`"⟩ :: handler.2.messages call⟩
  match answer with
  | .ok _ => started
  | .error causes => started.andThen
      (fail s!"action `{action.type}` failed to start: {causes.report}")

/-- Asks a handler whether the action is complete. -/
def ask (handler : HandlerName × Handler) (m : Moment) (r : SegmentRun) (env : Environment) :
    Turn SegmentRun :=
  let call : Call := .poll handler.1 r.number m.snapshot
  ⟨{ r with isActionComplete := handler.2.isComplete env.calls r.number m.snapshot },
    env.called call, handler.2.messages call⟩

/-- The entities that an action acts on; `none` if it has a target and there are none. -/
def targets? (action : Action) (s : Snapshot) : Option (List Entity) :=
  match action.target with
  | none => some []
  | some target =>
      match s.select target with
      | [] => none
      | targets => some targets

/-- What is said about a target of several entities. -/
def targetMessages (r : SegmentRun) (action : Action) (targets : List Entity) : List LogMessage :=
  match action.target with
  | some target =>
      if 1 < targets.length then
        [⟨.debug,
          s!"Target {target.describe} of segment `{r.name}` matches {targets.length} entities"⟩]
      else []
  | none => []

/-- Starts the action, unless its target is still missing. A segment without an action has nothing
to wait for. -/
def dispatch (m : Moment) (r : SegmentRun) (env : Environment) : Turn SegmentRun :=
  match r.segment.action with
  | none => .still { r with isDispatched := true, isActionComplete := true } env
  | some action =>
      if Version.current < action.apiVersion then
        fail (s!"action `{action.type}` requires API version {action.apiVersion.toNat}, but the "
          ++ s!"highest supported version is {Version.current.toNat}") r env
      else
        match targets? action m.snapshot with
        | none =>
            let target := (action.target.map Target.describe).getD ""
            .still { r with lastUnmet := some s!"no entity matches target {target}" } env
        | some targets =>
            let aimed : Turn SegmentRun := ⟨r, env, r.targetMessages action targets⟩
            match env.registry.handler? action.type with
            | none => aimed.andThen (fail s!"no handler registered for action type `{action.type}`")
            | some handler =>
                (aimed.andThen (start handler action targets m)).andThen fun r env =>
                  if r.state.isTerminal then .still r env else ask handler m r env

/-- The handler of the segment's action. -/
def handler? (r : SegmentRun) (env : Environment) : Option (HandlerName × Handler) :=
  r.segment.action.bind fun action => env.registry.handler? action.type

/-- Asks about a started action that was not complete before. -/
def poll (m : Moment) (r : SegmentRun) (env : Environment) : Turn SegmentRun :=
  if r.isActionComplete then .still r env
  else
    match r.handler? env with
    | none => .still r env
    | some handler =>
        (ask handler m r env).andThen fun r env =>
          if r.isActionComplete then .saying .debug s!"Action of segment `{r.name}` complete" r env
          else .still r env

/-- Tells the handler to give up an action that was started and is not complete. -/
def abortAction (r : SegmentRun) (env : Environment) : Turn SegmentRun :=
  if !r.isDispatched || r.isActionComplete then .still r env
  else
    match r.handler? env with
    | none => .still r env
    | some handler =>
        let call : Call := .abort handler.1 r.number
        ⟨r, env.called call, handler.2.messages call⟩

/-! ### Ticks -/

/-- Counts a tick. Time is counted from the first tick on. -/
def counted (delta : Float) (r : SegmentRun) : SegmentRun :=
  { r with
    elapsed := if r.ticks = 0 then r.elapsed else r.elapsed + forward delta
    ticks := r.ticks + 1 }

/-- Begins the segment, if all of it is of a supported version. -/
def begin (m : Moment) (r : SegmentRun) (env : Environment) : Turn SegmentRun :=
  (enter .awaitingEntry r env).andThen fun r env =>
    let version := r.segment.effectiveVersion
    if Version.current < version then
      fail (s!"requires API version {version.toNat}, but the highest supported version is "
        ++ s!"{Version.current.toNat}") r env
    else await .entry m r env

/-- Does what is next in the segment's state. -/
def advance (m : Moment) (r : SegmentRun) (env : Environment) : Turn SegmentRun :=
  match r.state with
  | .pending => begin m r env
  | .awaitingEntry => await .entry m r env
  | .executing =>
      (dispatch m r env).andThen fun r env =>
        if r.isDispatched && !r.state.isTerminal then
          (enter .awaitingCompletion r env).andThen (await .completion m)
        else .still r env
  | .awaitingCompletion => (poll m r env).andThen (await .completion m)
  | .completed | .timedOut | .failed | .skipped => .still r env

/-- Whether the segment's time is up. -/
def isTimeUp (r : SegmentRun) : Bool := r.segment.hasTimeout && r.segment.timeout ≤ r.elapsed

/-- Why a segment timed out. -/
def timeoutReason (r : SegmentRun) : String :=
  let limit := s!"timed out after {Number.display r.segment.timeout}s"
  match r.lastUnmet with
  | some unmet => s!"{limit}, {unmet}"
  | none => limit

/-- Ends a running segment whose time is up. -/
def checkTimeout (r : SegmentRun) (env : Environment) : Turn SegmentRun :=
  if !r.state.isTerminal && r.isTimeUp then
    let reason := r.timeoutReason
    (((Turn.saying .warn s!"Segment `{r.name}` {reason}" r env).andThen abortAction).map fun r =>
      { r with detail := some reason, lastUnmet := none }).andThen (enter .timedOut)
  else .still r env

/-- Abandons all vision requests of the segment. -/
def releaseAll (r : SegmentRun) (env : Environment) : Turn SegmentRun :=
  (releaseVision .entry r env).andThen (releaseVision .completion)

/-- Abandons all vision requests of a segment that has ended. -/
def releaseIfOver (r : SegmentRun) (env : Environment) : Turn SegmentRun :=
  if r.state.isTerminal then releaseAll r env else .still r env

/-- **Plays one tick.** A segment that has ended stays as it is. -/
def tick (m : Moment) (r : SegmentRun) (env : Environment) : Turn SegmentRun :=
  if r.state.isTerminal then .still r env
  else ((advance m (r.counted m.delta) env).andThen checkTimeout).andThen releaseIfOver

/-- Ends a segment that has not begun. -/
def skip (r : SegmentRun) (env : Environment) : Turn SegmentRun :=
  if r.state = .pending then
    (Turn.saying .debug s!"Skipping segment `{r.name}`" r env).andThen (enter .skipped)
  else .still r env

/-- **Ends a segment from outside.** A running segment counts as timed out, and one that has not
begun is skipped. -/
def abort (reason : String) (r : SegmentRun) (env : Environment) : Turn SegmentRun :=
  if r.state.isTerminal then .still r env
  else if r.state = .pending then skip r env
  else
    ((((Turn.saying .info s!"Aborting segment `{r.name}`: {reason}" r env).andThen
      abortAction).andThen releaseAll).map fun r => { r with detail := some reason }).andThen
      (enter .timedOut)

/-! ### Results -/

/-- How a segment ended. One that is still running has timed out as far as a result is concerned. -/
def outcome (r : SegmentRun) : Outcome :=
  match r.state with
  | .completed => .completed
  | .failed => .failed
  | .pending | .skipped => .notStarted
  | .timedOut | .awaitingEntry | .executing | .awaitingCompletion => .timedOut

/-- **What the run has come to.** -/
def result (r : SegmentRun) : SegmentResult :=
  if r.outcome = .notStarted then
    .notStarted r.listName r.name (.ofNat r.number) r.isRequired
  else
    { listName := r.listName
      segmentName := r.name
      segmentNumber := .ofNat r.number
      outcome := r.outcome
      isRequired := r.isRequired
      passed := r.passed
      elapsed := r.elapsed
      ticks := .ofNat r.ticks
      detail := r.detail
      validationsTimedOut := r.validationsTimedOut }

end SegmentRun

end Playtest
