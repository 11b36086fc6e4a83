import Playtest.Segment.Run

/-!
# Playing a segment list

The segments of a list are played one after another. What comes of a segment that does not complete
depends on who needs it: a required segment ends the whole run, a segment of an optional list ends
that list, and any other segment is passed over.

* `ListRun.tick` plays one tick of the segment whose turn it is,
* `ListEvent` is what the run has to know about that tick.
-/

namespace Playtest

/-- How far a list has come. -/
inductive ListState where
  | notStarted
  | running
  | finished
  deriving Repr, DecidableEq

/-- What a tick of a list means for the run. -/
inductive ListEvent where
  | running
  /-- A segment was completed. -/
  | keyFrame
  | finished
  /-- A required segment did not complete. -/
  | fatal (reason : String)
  deriving Repr, DecidableEq

/-- The **run of a list**. -/
structure ListRun where
  name : String
  isOptional : Bool
  isParallel : Bool
  /-- The segments whose turn is over. -/
  played : List SegmentRun
  /-- The segment whose turn it is, and those after it. -/
  ahead : List SegmentRun
  state : ListState

namespace ListRun

/-- All segments of a list. -/
def segments (l : ListRun) : List SegmentRun := l.played ++ l.ahead

/-- Whether the list has ended. -/
def isFinished (l : ListRun) : Bool := l.state == .finished

/-- What is said when a list begins. -/
def beginning (l : ListRun) : List LogMessage :=
  if l.state = .notStarted then [⟨.info, s!"Starting segment list `{l.name}`"⟩] else []

/-- The list after its first tick has begun. -/
def begun (l : ListRun) : ListRun :=
  if l.state = .notStarted then { l with state := .running } else l

/-- Does the same with one segment after another. -/
def eachSegment (f : SegmentRun → Environment → Turn SegmentRun) :
    List SegmentRun → Environment → Turn (List SegmentRun)
  | [], env => .still [] env
  | s :: rest, env =>
      (f s env).andThen fun s env => (eachSegment f rest env).map (s :: ·)

/-- The end of a list of which all segments have had their turn. -/
def closed (l : ListRun) : ListRun :=
  if l.ahead.isEmpty then { l with state := .finished } else l

/-- What is said when all segments have had their turn. -/
def closing (l : ListRun) : List LogMessage :=
  if l.ahead.isEmpty then [⟨.info, s!"Finished segment list `{l.name}`"⟩] else []

/-- Goes on after a segment that has ended, which is the last one in `l.played`. -/
def settle (s : SegmentRun) (l : ListRun) (env : Environment) : Turn (ListRun × ListEvent) :=
  let ended := s!"`{s.name}` ended {s.state.name}"
  if s.state = .completed then
    ⟨(l.closed, .keyFrame), env, l.closing⟩
  else if s.isRequired then
    .still ({ l with state := .finished },
      .fatal s!"Segment `{s.name}` in list `{l.name}` ended {s.state.name}") env
  else if l.isOptional then
    (Turn.saying .warn s!"Optional segment list `{l.name}` ended early, segment {ended}" l
      env).andThen fun l env =>
        (eachSegment SegmentRun.skip l.ahead env).map fun ahead =>
          ({ l with ahead, state := .finished }, .finished)
  else
    ⟨(l.closed, if l.ahead.isEmpty then .finished else .running), env,
      ⟨.warn, s!"Optional segment {ended}, continuing"⟩ :: l.closing⟩

/-- Plays a tick of the segment whose turn it is. -/
def play (m : Moment) (l : ListRun) (env : Environment) : Turn (ListRun × ListEvent) :=
  match l.ahead with
  | [] => .still ({ l with state := .finished }, .finished) env
  | s :: rest =>
      (s.tick m env).andThen fun s env =>
        if s.state.isTerminal then
          settle s { l with played := l.played ++ [s], ahead := rest } env
        else .still ({ l with ahead := s :: rest }, .running) env

/-- **Plays one tick.** -/
def tick (m : Moment) (l : ListRun) (env : Environment) : Turn (ListRun × ListEvent) :=
  (⟨l.begun, env, l.beginning⟩ : Turn ListRun).andThen (play m)

/-- **Ends a list from outside**, and with it every segment that has not ended. -/
def abort (reason : String) (l : ListRun) (env : Environment) : Turn ListRun :=
  (eachSegment (SegmentRun.abort reason) l.played env).andThen fun played env =>
    (eachSegment (SegmentRun.abort reason) l.ahead env).map fun ahead =>
      { l with played, ahead, state := .finished }

end ListRun

end Playtest
