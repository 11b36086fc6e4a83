import Playtest.Segment.Document

/-!
# Sequences

A sequence is a named, ordered collection of entries. An entry points at another document, or
carries a segment list or a segment itself. A sequence has at least one entry: without any it could
not be told from an empty segment list.
-/

namespace Playtest

open Playtest.Json

/-- The kind of document an entry may point at. -/
inductive EntryKind where
  | segment
  | segmentList
  deriving Repr, DecidableEq

/-- One entry of a sequence. -/
inductive Entry where
  /-- A document elsewhere; without a kind, either kind may be there. -/
  | reference (kind : Option EntryKind) (path : String)
  | list (list : SegmentList)
  | segment (segment : Segment)

/-- A **sequence** of entries. -/
structure Sequence where
  name : String
  description : String
  entries : List Entry

namespace EntryKind

/-- The name of a kind in documents. -/
def name : EntryKind → String
  | .segment => "Segment"
  | .segmentList => "SegmentList"

/-- Reads a kind. -/
def decoder : Decoder EntryKind := .word [("Segment", .segment), ("SegmentList", .segmentList)]

end EntryKind

namespace Entry

/-- The one thing that an entry says, of the three it could say. -/
def choose (kind : Option EntryKind) :
    Option String → Option SegmentList → Option Segment → Except DocumentError Entry
  | some path, none, none => .ok (.reference kind path)
  | none, some l, none => .ok (.list l)
  | none, none, some s => .ok (.segment s)
  | _, _, _ => .error .ambiguousEntry

/-- The fields of an entry. -/
def record : Record (Except DocumentError Entry) :=
  choose <$> .fieldMaybe "type" EntryKind.decoder <*> .fieldMaybe "path" .text
    <*> .fieldMaybe "segmentList" SegmentList.decoder <*> .fieldMaybe "segment" Segment.decoder

/-- Reads an entry. -/
def decoder : Decoder Entry :=
  (record.decoder "struct RawSequenceEntry").andThen fun r => r.mapError DocumentError.message

/-- An entry as a document. -/
def toValue : Entry → Value
  | .reference kind path =>
      .obj ((kind.map fun k => ("type", Value.str k.name)).toList ++ [("path", .str path)])
  | .list l => .obj [("segmentList", l.toValue)]
  | .segment s => .obj [("segment", s.toValue)]

end Entry

namespace Sequence

/-- A sequence without a description. -/
def of (name : String) (entries : List Entry) : Sequence := ⟨name, "", entries⟩

/-- A sequence has entries. -/
def nonEmpty (s : Sequence) : Except DocumentError Sequence :=
  if s.entries.isEmpty then .error (.emptySequence s.name) else .ok s

/-- The fields of a sequence. -/
def record : Record Sequence :=
  Sequence.mk <$> .fieldOr "name" .text "" <*> .fieldOr "description" .text ""
    <*> .field "segments" Entry.decoder.list

/-- Reads a sequence. -/
def decoder : Decoder Sequence :=
  (record.decoder "struct RawBotSequence").andThen fun s =>
    s.nonEmpty.mapError DocumentError.message

/-- A sequence as a document. -/
def toValue (s : Sequence) : Value :=
  .obj [("name", .str s.name), ("description", .str s.description),
    ("segments", .arr (s.entries.map Entry.toValue))]

end Sequence

end Playtest
