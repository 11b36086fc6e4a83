import Playtest.Json.Decode

/-!
# Replies of the vision service
-/

namespace Playtest.Vision

open Playtest.Json

/-- What is known about one request. -/
inductive Reply where
  | pending
  | matched
  | notMatched
  /-- The service could not answer; the request is sent again. -/
  | failed (reason : String)
  deriving Repr, DecidableEq

namespace Reply

/-- Reads a reply. -/
def decoder : Decoder Reply :=
  Variant.decoder
    [("Pending", .word .pending), ("Matched", .word .matched), ("NotMatched", .word .notMatched),
     ("failed", .payload fun s n => (Decoder.text "a string" s n).map .failed)]

/-- A reply as a document. -/
def toValue : Reply → Value
  | .pending => .str "Pending"
  | .matched => .str "Matched"
  | .notMatched => .str "NotMatched"
  | .failed reason => .obj [("failed", .str reason)]

end Reply

end Playtest.Vision
