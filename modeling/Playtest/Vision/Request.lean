import Playtest.Log
import Playtest.Vision.Screenshot

/-!
# Vision requests

What is sent to the service that finds texts and pictures in a screenshot. The index tells which
criteria an answer belongs to, since answers come later and in any order.

`Request.of` makes a request from what a criteria asks for: a threshold outside `[0, 1]` is brought
into it, and misuse is reported but never stops the request.
-/

namespace Playtest.Vision

open Playtest.Json

/-- A **request** to the vision service. -/
structure Request where
  screenshot : Screenshot
  textQuery : Option String
  /-- The picture to look for, as base64 text. -/
  imageQuery : Option String
  withinRect : Option Rect
  threshold : Float32
  index : UInt64

/-- What may be wrong with a request. -/
inductive Misuse where
  | bothQueries
  | noQuery
  | thresholdOutside (requested used : Float32)

namespace Misuse

/-- The wording of a misuse. -/
def message : Misuse → String
  | .bothQueries => "has both a text and an image query, only one should be set"
  | .noQuery => "has neither a text nor an image query, one must be set"
  | .thresholdOutside requested used =>
      s!"threshold {Number.displaySingle requested} is outside [0, 1], using "
        ++ Number.displaySingle used

/-- A wrong number of queries is an error; a threshold that was brought into range is not. -/
def level : Misuse → LogLevel
  | .bothQueries | .noQuery => .error
  | .thresholdOutside _ _ => .warn

end Misuse

namespace Request

/-- A threshold brought into `[0, 1]`; what is no number counts as zero. -/
def clampThreshold (t : Float32) : Float32 :=
  if t.isNaN then 0.0 else if t < 0.0 then 0.0 else if 1.0 < t then 1.0 else t

/-- What is wrong with a request. -/
def misuses (textQuery imageQuery : Option String) (threshold : Float32) : List Misuse :=
  (match textQuery, imageQuery with
    | some _, some _ => [.bothQueries]
    | none, none => [.noQuery]
    | _, _ => [])
  ++ (let used := clampThreshold threshold
      if used == threshold then [] else [.thresholdOutside threshold used])

/-- A request, and what is said about it. -/
def of (screenshot : Screenshot) (textQuery imageQuery : Option String) (withinRect : Option Rect)
    (threshold : Float32) (index : UInt64) : Request × List LogMessage :=
  (⟨screenshot, textQuery, imageQuery, withinRect, clampThreshold threshold, index⟩,
    (misuses textQuery imageQuery threshold).map fun m =>
      ⟨m.level, s!"Vision request {index.toNat} {m.message}"⟩)

/-- The fields of a request. -/
def record : Record Request :=
  Request.mk <$> .field "screenshot" Screenshot.decoder <*> .fieldMaybe "textQuery" .text
    <*> .fieldMaybe "imageToMatch" .text <*> .fieldMaybe "withinRect" Rect.decoder
    <*> .field "threshold" .single <*> .field "index" .uint64

/-- Reads a request. -/
def decoder : Decoder Request := record.decoder "struct CvObjectDetectionRequest"

/-- The fields of a request before its threshold. -/
def queryFields (r : Request) : List (String × Value) :=
  [("screenshot", r.screenshot.toValue)]
    ++ (r.textQuery.map fun q => ("textQuery", .str q)).toList
    ++ (r.imageQuery.map fun q => ("imageToMatch", .str q)).toList
    ++ (r.withinRect.map fun q => ("withinRect", q.toValue)).toList

/-- A request as a document. -/
def toValue (r : Request) : Value :=
  .obj (r.queryFields ++ [("threshold", .ofSingle r.threshold),
    ("index", .int (.ofUInt64 r.index))])

/-- The text of a threshold: the fewest digits that tell it from its 32-bit neighbours. -/
def thresholdText (t : Float32) : String :=
  match Number.unpackSingle t with
  | .finite negative m q => Number.Layout.jsonSingle.render .single (.finite negative m q)
  | _ => "null"

/-- The text that is sent. -/
def render (r : Request) : String :=
  let parts := r.queryFields.map fun f => (f.1, f.2.render)
  let parts := parts ++ [("threshold", thresholdText r.threshold),
      ("index", toString r.index.toNat)]
  "\x7b" ++ ",".intercalate (parts.map fun p => (Value.str p.1).render ++ ":" ++ p.2) ++ "\x7d"

end Request

end Playtest.Vision
