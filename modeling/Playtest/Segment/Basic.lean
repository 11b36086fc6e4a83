import Playtest.Action
import Playtest.Text.Blank

/-!
# Segments and segment lists

A segment is one step of a sequence: it waits for its entry criteria, performs its action once, and
then waits for its end criteria. A segment list is a number of segments that are played one after
another.

* `Segment.effectiveVersion`, `SegmentList.effectiveVersion`: the highest version named anywhere,
* `SegmentList.named`: every segment without a name gets one from its list and position.
-/

namespace Playtest

/-- A **segment**. A timeout of zero or less means none. -/
structure Segment where
  name : String
  description : String
  sessionId : Option String
  apiVersion : Version
  entryCriteria : List Criteria
  endCriteria : List Criteria
  endJoin : Join
  action : Option Action
  timeout : Float

namespace Segment

/-- A segment with nothing but a name. -/
def ofName (name : String) : Segment :=
  { name
    description := ""
    sessionId := none
    apiVersion := .first
    entryCriteria := []
    endCriteria := []
    endJoin := .all
    action := none
    timeout := 0.0 }

/-- The highest version named anywhere in a segment. -/
def effectiveVersion (s : Segment) : Version :=
  let criteria := Criteria.effectiveVersions s.apiVersion (s.entryCriteria ++ s.endCriteria)
  match s.action with
  | some a => max criteria a.apiVersion
  | none => criteria

/-- Whether a segment has a timeout. -/
def hasTimeout (s : Segment) : Bool := 0.0 < s.timeout

/-- Whether a segment has no name worth showing. -/
def isUnnamed (s : Segment) : Bool := Text.allBlank s.name

end Segment

/-- A **segment list**: segments that are played one after another. -/
structure SegmentList where
  name : String
  description : String
  apiVersion : Version
  segments : List Segment

namespace SegmentList

/-- The name of the unnamed segment at a position, counted from one. -/
def segmentName (list : String) (position : Nat) : String := s!"{list} - Segment #{position}"

/-- Gives names to unnamed segments, the first of which is at `position`. -/
def nameFrom (list : String) : (position : Nat) → List Segment → List Segment
  | _, [] => []
  | position, s :: rest =>
      (if s.isUnnamed then { s with name := segmentName list position } else s)
        :: nameFrom list (position + 1) rest

/-- The list with a name for every segment. -/
def named (l : SegmentList) : SegmentList := { l with segments := nameFrom l.name 1 l.segments }

/-- A list of segments. -/
def of (name : String) (segments : List Segment) : SegmentList :=
  SegmentList.named ⟨name, "", .first, segments⟩

/-- The list that consists of one segment and takes its name from it. -/
def ofSegment (s : Segment) : SegmentList := ⟨s.name, s.description, s.apiVersion, [s]⟩

/-- The highest version named anywhere in a list. -/
def effectiveVersion (l : SegmentList) : Version :=
  Version.highest l.apiVersion (l.segments.map Segment.effectiveVersion)

end SegmentList

end Playtest
