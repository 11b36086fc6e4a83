import Playtest.Segment.Basic

/-!
# Segments in documents

The key `endCriteria` (or `keyFrameCriteria`) is what tells a segment from other documents, and
`segments` is what tells a list: both are required, everything else has a default.
-/

namespace Playtest

open Playtest.Json

/-- The name of a way to combine criteria. -/
def Join.name : Join → String
  | .all => "All"
  | .any => "Any"

/-- Reads a way to combine criteria. -/
def Join.decoder : Decoder Join :=
  .word [("All", .all), ("And", .all), ("Any", .any), ("Or", .any)]

namespace Segment

/-- The fields of a segment. -/
def record : Record Segment :=
  Segment.mk <$> .fieldOr "name" .text "" <*> .fieldOr "description" .text ""
    <*> .fieldMaybe "sessionId" .text <*> .fieldOr "apiVersion" Version.decoder .first
    <*> .fieldOr "entryCriteria" Criteria.decoder.list []
    <*> .named "endCriteria" ["keyFrameCriteria"] Criteria.decoder.list .refused
    <*> .fieldOr "endCriteriaJoin" Join.decoder .all
    <*> .named "botAction" ["action"] Action.decoder.option (.filled none)
    <*> .fieldOr "timeout" .float 0.0

/-- Reads a segment. -/
def decoder : Decoder Segment := record.decoder "struct BotSegment"

/-- A segment as a document. -/
def toValue (s : Segment) : Value :=
  .obj ([("name", .str s.name), ("description", .str s.description)]
    ++ (s.sessionId.map fun id => ("sessionId", .str id)).toList
    ++ [("apiVersion", .int (.ofUInt32 s.apiVersion)),
      ("entryCriteria", .arr (s.entryCriteria.map Criteria.toValue)),
      ("endCriteria", .arr (s.endCriteria.map Criteria.toValue)),
      ("endCriteriaJoin", .str s.endJoin.name)]
    ++ (s.action.map fun a => ("botAction", a.toValue)).toList
    ++ [("timeout", .ofFloat s.timeout)])

end Segment

namespace SegmentList

/-- The fields of a segment list. -/
def record : Record SegmentList :=
  SegmentList.mk <$> .fieldOr "name" .text "" <*> .fieldOr "description" .text ""
    <*> .fieldOr "apiVersion" Version.decoder .first <*> .field "segments" Segment.decoder.list

/-- Reads a segment list. -/
def decoder : Decoder SegmentList := record.decoder "struct BotSegmentList"

/-- A segment list as a document. -/
def toValue (l : SegmentList) : Value :=
  .obj [("name", .str l.name), ("description", .str l.description),
    ("apiVersion", .int (.ofUInt32 l.apiVersion)),
      ("segments", .arr (l.segments.map Segment.toValue))]

end SegmentList

end Playtest
