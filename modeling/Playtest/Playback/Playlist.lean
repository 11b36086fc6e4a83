import Playtest.Segment.Document

/-!
# Playlists

What is played in the end: segment lists, one after another.
-/

namespace Playtest

/-- A **playlist**. -/
structure Playlist where
  name : String
  lists : List SegmentList

namespace Playlist

/-- All segments with the names of their lists, in the order in which they are numbered. -/
def segments (p : Playlist) : List (String × Segment) :=
  p.lists.flatMap fun l => l.segments.map fun s => (l.name, s)

/-- The playlist of one list. -/
def ofList (l : SegmentList) : Playlist := ⟨l.name, [l]⟩

/-- The playlist of one segment. -/
def ofSegment (s : Segment) : Playlist := ⟨s.name, [.ofSegment s]⟩

/-- A playlist as a document. -/
def toValue (p : Playlist) : Json.Value :=
  .obj [("name", .str p.name), ("segmentCount", .ofNat p.segments.length),
    ("lists", .arr (p.lists.map SegmentList.toValue))]

end Playlist

end Playtest
