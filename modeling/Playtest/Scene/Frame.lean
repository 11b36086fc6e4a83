import Playtest.Vision.Screenshot

/-!
# Frames

What the game reports for one frame: its objects with their names, components and attributes, and
perhaps a screenshot. Objects say which object is their parent; their full names are worked out from
that elsewhere.
-/

namespace Playtest.Scene

open Playtest.Json

/-- An object as the game reports it. -/
structure Object where
  id : Int64
  parentId : Option Int64
  name : Option String
  /-- Names of component types, with the names of what contains them in front. -/
  components : List String
  position : Option (List Float)
  /-- In the order of their keys. -/
  attributes : Fields

/-- A **frame**. Its time is in seconds since the recording began. -/
structure Frame where
  number : UInt64
  time : Option Float
  objects : List Object
  screenshot : Option Vision.Screenshot

namespace Object

/-- The fields of an object. -/
def record : Record Object :=
  Object.mk <$> .field "id" .int64 <*> .fieldMaybe "parentId" .int64 <*> .fieldMaybe "name" .text
    <*> .fieldOr "components" (Decoder.text).list [] <*> .fieldMaybe "position" Decoder.float.list
    <*> .fieldOr "attributes" .fields []

/-- Reads an object. -/
def decoder : Decoder Object := record.decoder "struct RawObject"

/-- An object as a document. -/
def toValue (o : Object) : Value :=
  .obj ([("id", .int (.ofInt64 o.id))]
    ++ (o.parentId.map fun id => ("parentId", .int (.ofInt64 id))).toList
    ++ (o.name.map fun n => ("name", .str n)).toList
    ++ [("components", .arr (o.components.map .str))]
    ++ (o.position.map fun p => ("position", .arr (p.map .ofFloat))).toList
    ++ [("attributes", .obj o.attributes)])

end Object

namespace Frame

/-- The frame of which nothing is reported. -/
def empty : Frame := ⟨0, none, [], none⟩

/-- The fields of a frame. -/
def record : Record Frame :=
  Frame.mk <$> .fieldOr "frame" .uint64 0 <*> .fieldMaybe "time" .float
    <*> .fieldOr "objects" Object.decoder.list [] <*> .fieldMaybe "screenshot"
      Vision.Screenshot.decoder

/-- Reads a frame. -/
def decoder : Decoder Frame := record.decoder "struct RawFrame"

/-- A frame as a document. -/
def toValue (f : Frame) : Value :=
  .obj ([("frame", .int (.ofUInt64 f.number))]
    ++ (f.time.map fun t => ("time", .ofFloat t)).toList
    ++ [("objects", .arr (f.objects.map Object.toValue))]
    ++ (f.screenshot.map fun s => ("screenshot", s.toValue)).toList)

end Frame

end Playtest.Scene
