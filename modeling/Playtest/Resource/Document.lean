import Playtest.Sequence

/-!
# Documents

A document is a sequence, a segment list or a segment, and says so only by what is in it. It is
taken for the first of the three that it can be read as.

* `Document.ofText` reads a document,
* `Document.unsupported?` is what is too new in it.
-/

namespace Playtest.Resource

open Playtest.Json

/-- A **document** of one of the three kinds. -/
inductive Document where
  | sequence (sequence : Sequence)
  | list (list : SegmentList)
  | segment (segment : Segment)

/-- Why a text is none of the three kinds. -/
structure NotDocument where
  asSequence : DecodeError
  asList : DecodeError
  asSegment : DecodeError

/-- The wording of why a text is no document. -/
def NotDocument.message (n : NotDocument) : String :=
  s!"not a sequence ({n.asSequence.message}), not a segment list ({n.asList.message}), "
    ++ s!"not a segment ({n.asSegment.message})"

namespace Document

/-- The name of a document. -/
def name : Document → String
  | .sequence s => s.name
  | .list l => l.name
  | .segment s => s.name

/-- What messages call a document. -/
def kindName : Document → String
  | .sequence _ => "sequence"
  | .list _ => "segment list"
  | .segment _ => "segment"

/-- **Reads a document.** -/
def ofText (json : String) : Except NotDocument Document :=
  match Sequence.decoder.ofText json with
  | .ok s => .ok (.sequence s)
  | .error asSequence =>
      match SegmentList.decoder.ofText json with
      | .ok l => .ok (.list l.named)
      | .error asList =>
          match Segment.decoder.ofText json with
          | .ok s => .ok (.segment s)
          | .error asSegment => .error ⟨asSequence, asList, asSegment⟩

/-- What is too new about something of a version. -/
def tooNew? (subject : String) (version : Version) : Option DocumentError :=
  if Version.current < version then some (.unsupported subject version) else none

/-- What is too new in a segment list. -/
def listTooNew? (l : SegmentList) : Option DocumentError :=
  tooNew? s!"Segment list `{l.name}`" l.effectiveVersion

/-- What is too new in a segment. -/
def segmentTooNew? (s : Segment) : Option DocumentError :=
  tooNew? s!"Segment `{s.name}`" s.effectiveVersion

/-- What is too new in an entry of a sequence. Nothing is known yet of what an entry points at. -/
def entryTooNew? : Entry → Option DocumentError
  | .list l => listTooNew? l
  | .segment s => segmentTooNew? s
  | .reference _ _ => none

/-- The first part of a document that is too new to be played. -/
def unsupported? : Document → Option DocumentError
  | .sequence s => s.entries.findSome? entryTooNew?
  | .list l => listTooNew? l
  | .segment s => segmentTooNew? s

/-- What a document contains, as a document. -/
def toValue : Document → Value
  | .sequence s => s.toValue
  | .list l => l.toValue
  | .segment s => s.toValue

end Document

end Playtest.Resource
