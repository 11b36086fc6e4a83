import Playtest.Json.Decode
import Playtest.Text.Base64

/-!
# Screenshots and search areas

The picture of a frame, with its pixels as base64 text in documents, and the rectangle of it in
which something is looked for.
-/

namespace Playtest.Vision

open Playtest.Json

/-- The pixels of a frame. -/
structure Screenshot where
  width : UInt32
  height : UInt32
  bytes : List UInt8
  deriving DecidableEq

/-- A rectangle in pixels of the screenshot. -/
structure Rect where
  x : Int32
  y : Int32
  width : UInt32
  height : UInt32
  deriving DecidableEq

/-- Bytes written as base64 text. -/
def bytesDecoder : Decoder (List UInt8) :=
  (Decoder.text).andThen fun s => (Text.Base64.decode s).mapError (·.message)

namespace Screenshot

/-- The fields of a screenshot. -/
def record : Record Screenshot :=
  Screenshot.mk <$> .field "width" .uint32 <*> .field "height" .uint32
    <*> .field "data" bytesDecoder

/-- Reads a screenshot. -/
def decoder : Decoder Screenshot := record.decoder "struct CvImageBinaryData"

/-- A screenshot as a document. -/
def toValue (s : Screenshot) : Value :=
  .obj [("width", .int (.ofUInt32 s.width)), ("height", .int (.ofUInt32 s.height)),
    ("data", .str (Text.Base64.encode s.bytes))]

end Screenshot

namespace Rect

/-- The fields of a rectangle. -/
def record : Record Rect :=
  Rect.mk <$> .field "x" .int32 <*> .field "y" .int32 <*> .field "width" .uint32
    <*> .field "height" .uint32

/-- Reads a rectangle. -/
def decoder : Decoder Rect := record.decoder "struct CvRect"

/-- A rectangle as a document. -/
def toValue (r : Rect) : Value :=
  .obj [("x", .int (.ofInt32 r.x)), ("y", .int (.ofInt32 r.y)),
    ("width", .int (.ofUInt32 r.width)), ("height", .int (.ofUInt32 r.height))]

end Rect

end Playtest.Vision
