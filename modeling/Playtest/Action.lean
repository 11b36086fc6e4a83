import Playtest.Criteria.Document

/-!
# Actions

What a segment does once its entry criteria hold. The library never looks into an action's data: its
type says which handler performs it. A target narrows the action down to some entities.
-/

namespace Playtest

open Playtest.Json

/-- How an action picks the entities it acts on. -/
inductive Target where
  | id (entity : Int64)
  | path (path : String)
  | normalizedPath (path : String)
  deriving DecidableEq

namespace Target

/-- How messages name a target. -/
def describe : Target → String
  | .id entity => s!"id {entity.toInt}"
  | .path p => s!"path `{p}`"
  | .normalizedPath p => s!"normalized path `{p}`"

/-- Reads a target. -/
def decoder : Decoder Target :=
  Variant.decoder
    [("id", .payload fun s n => (Decoder.int64 s n).map .id),
     ("path", .payload fun s n => (Decoder.text "a string" s n).map .path),
     ("normalizedPath", .payload fun s n => (Decoder.text "a string" s n).map .normalizedPath)]

/-- A target as a document. -/
def toValue : Target → Value
  | .id entity => .obj [("id", .int (.ofInt64 entity))]
  | .path p => .obj [("path", .str p)]
  | .normalizedPath p => .obj [("normalizedPath", .str p)]

end Target

/-- An **action**: what is done, with data for its handler, to which entities. -/
structure Action where
  type : String
  apiVersion : Version
  data : Value
  target : Option Target

namespace Action

/-- An action of the first version without a target. -/
def of (type : String) (data : Value) : Action := ⟨type, .first, data, none⟩

/-- The same action on a target. -/
def withTarget (a : Action) (target : Target) : Action := { a with target := some target }

/-- The fields of an action. -/
def record : Record Action :=
  Action.mk <$> .field "type" .text <*> .fieldOr "apiVersion" Version.decoder .first
    <*> .fieldOr "data" .value .null <*> .fieldMaybe "target" Target.decoder

/-- Reads an action. -/
def decoder : Decoder Action := record.decoder "struct BotAction"

/-- An action as a document. -/
def toValue (a : Action) : Value :=
  .obj ([("type", .str a.type), ("apiVersion", .int (.ofUInt32 a.apiVersion)), ("data", a.data)]
    ++ (a.target.map fun t => ("target", t.toValue)).toList)

end Action

end Playtest
