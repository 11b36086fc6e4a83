import Playtest.Criteria.Basic

/-!
# Criteria in documents

A criteria is written as its type, its version, whether it is transient, and data whose form depends
on the type. The data is read as a value first and understood once the type is known, so a problem
in it is reported with the type in front, once for each group around it. For the same reason
everything in the data stands in the order of its keys.

* `Criteria.toValue` writes, `Criteria.decoder` reads.
-/

namespace Playtest

open Playtest.Json

/-! ### Writing -/

/-- The name of a count rule. -/
def CountRule.name : CountRule → String
  | .zero => "Zero"
  | .nonZero => "NonZero"
  | .greaterThanEqual => "GreaterThanEqual"
  | .lessThanEqual => "LessThanEqual"

/-- A path test as data. -/
def PathTest.data (t : PathTest) : Value :=
  .obj [("addedCount", .int (.ofUInt64 t.addedCount)), ("count", .int (.ofUInt64 t.count)),
    ("countRule", .str t.countRule.name), ("path", .str t.path),
    ("removedCount", .int (.ofUInt64 t.removedCount))]

/-- An operator as data. -/
def ValueOperator.data : ValueOperator → Value
  | .equals v => .obj [("equals", v)]
  | .contains v => .obj [("contains", v)]
  | .range min max => .obj [("range", .obj [("max", max), ("min", min)])]

/-- A value test as data. -/
def ValueTest.data (t : ValueTest) : Value :=
  .obj [("attribute", .str t.attributeName), ("operator", t.operator.data), ("path", .str t.path)]

/-- A rectangle as data. -/
def Vision.Rect.data (r : Vision.Rect) : Value :=
  .obj [("height", .int (.ofUInt32 r.height)), ("width", .int (.ofUInt32 r.width)),
    ("x", .int (.ofInt32 r.x)), ("y", .int (.ofInt32 r.y))]

/-- A query as data. -/
def VisionQuery.data (q : VisionQuery) : Value :=
  .obj [("imageQuery", .ofOption .str q.imageQuery), ("textQuery", .ofOption .str q.textQuery),
    ("threshold", .ofSingle q.threshold), ("withinRect", .ofOption (·.data) q.withinRect)]

/-- The data of a test. -/
def Test.data : Test → Value
  | .void => .null
  | .path _ t => t.data
  | .value t => t.data
  | .vision _ q => q.data
  | .validations timeout => .obj [("timeout", .ofFloat timeout)]
  | .actionComplete => .null
  | .custom predicate args => .obj [("args", args), ("name", .str predicate)]

namespace Criteria

mutual

/-- The data of a criteria. -/
def data : Criteria → Value
  | single _ _ test => test.data
  | group _ _ _ members => .obj [("criteriaList", .arr (membersData members))]

/-- The members of a group as data. -/
def membersData : List Criteria → List Value
  | [] => []
  | c :: cs =>
      .obj [("apiVersion", .int (.ofUInt32 c.apiVersion)), ("data", data c),
        ("transient", .bool c.isTransient), ("type", .str c.kind.name)] :: membersData cs

end

/-- A criteria as a document. -/
def toValue (c : Criteria) : Value :=
  .obj [("type", .str c.kind.name), ("apiVersion", .int (.ofUInt32 c.apiVersion)),
    ("transient", .bool c.isTransient), ("data", c.data)]

end Criteria

/-! ### Reading -/

/-- Reads a version. -/
def Version.decoder : Decoder Version := .uint32

/-- Reads a count rule. -/
def CountRule.decoder : Decoder CountRule :=
  .word [("Zero", .zero), ("NonZero", .nonZero), ("GreaterThanEqual", .greaterThanEqual),
    ("LessThanEqual", .lessThanEqual)]

/-- The data of a path test. -/
def PathTest.record : Record PathTest :=
  PathTest.mk <$> .field "path" .text <*> .fieldOr "countRule" CountRule.decoder .nonZero
    <*> .fieldOr "count" .count 0 <*> .fieldOr "addedCount" .count 0
    <*> .fieldOr "removedCount" .count 0

/-- The data of a range. -/
def ValueOperator.rangeRecord : Record ValueOperator :=
  ValueOperator.range <$> .field "min" .value <*> .field "max" .value

/-- Reads an operator. -/
def ValueOperator.decoder : Decoder ValueOperator :=
  Variant.decoder
    [("equals", .payload fun s n => (Decoder.value s n).map .equals),
     ("contains", .payload fun s n => (Decoder.value s n).map .contains),
     ("range", .fields "struct variant ValueOperator::Range" rangeRecord)]

/-- The data of a value test. -/
def ValueTest.record : Record ValueTest :=
  ValueTest.mk <$> .field "path" .text <*> .field "attribute" .text
    <*> .field "operator" ValueOperator.decoder

/-- The data of a vision query. A threshold of one half stands in for a missing one. -/
def VisionQuery.record : Record VisionQuery :=
  VisionQuery.mk <$> .fieldMaybe "textQuery" .text <*> .fieldMaybe "imageQuery" .text
    <*> .fieldMaybe "withinRect" Vision.Rect.decoder <*> .fieldOr "threshold" .single 0.5

/-- The data of a validations test. -/
def validationsRecord : Record Test := Test.validations <$> .fieldOr "timeout" .float 0.0

/-- The data of a custom test. -/
def customRecord : Record Test :=
  Test.custom <$> .field "name" .text <*> .fieldOr "args" .value .null

namespace Criteria

/-- A criteria whose data has not been understood yet. -/
structure Raw where
  type : String
  apiVersion : Version
  transient : Bool
  data : Value

/-- The fields of a criteria. -/
def Raw.record : Record Raw :=
  Raw.mk <$> .field "type" .text <*> .fieldOr "apiVersion" Version.decoder .first
    <*> .fieldOr "transient" .bool false <*> .fieldOr "data" .value .null

/-- Reads a criteria up to its data. -/
def Raw.decoder : Decoder Raw := Raw.record.decoder "struct RawCriteria"

/-- The members of a group, each read by `member`. -/
def membersRecord (member : Decoder Criteria) : Record (List Criteria) :=
  Record.map id <| .fieldOr "criteriaList" member.list []

/-- Understands the data of a criteria, given how members of a group are read. A later version than
the current one explains a type that is not known. -/
def ofRaw (member : Decoder Criteria) (raw : Raw) : Except DocumentError Criteria :=
  match CriteriaKind.ofName? raw.type with
  | none =>
      if Version.current < raw.apiVersion then
        .error (.unsupported s!"`{raw.type}` criteria" raw.apiVersion)
      else .error (.unknownCriteria raw.type)
  | some kind =>
      let test {α : Type} (title : String) (r : Record α) (make : α → Criteria) :=
        match (r.decoder title).ofValue raw.data with
        | .ok a => .ok (make a)
        | .error e => .error (.criteriaData kind.name e.message)
      let single := single raw.apiVersion raw.transient
      let group := group raw.apiVersion raw.transient
      let path isPartial := test "struct PathCriteriaData" PathTest.record
        fun t => single (.path isPartial t)
      let vision visionKind := test "struct VisionCriteriaData" VisionQuery.record
        fun q => single (.vision visionKind q)
      let members join := test "struct CriteriaListData" (membersRecord member) (group join)
      match kind with
      | .void => .ok (single .void)
      | .actionComplete => .ok (single .actionComplete)
      | .normalizedPath => path false
      | .partialNormalizedPath => path true
      | .value => test "struct ValueCriteriaData" ValueTest.record fun t => single (.value t)
      | .cvText => vision .text
      | .cvImage => vision .image
      | .cvObjectDetection => vision .object
      | .validationsComplete =>
          match raw.data with
          | .null => .ok (single (.validations 0.0))
          | _ => test "struct ValidationsCompleteData" validationsRecord single
      | .and => members .all
      | .or => members .any
      | .custom => test "struct CustomCriteriaData" customRecord single

/-- Reads a criteria whose data is nested less deep than the bound. Nothing that is nested less than
one deep is a structure. -/
def within : (depth : Nat) → Decoder Criteria
  | 0 => fun _ n => n.unexpected "struct RawCriteria"
  | depth + 1 => Raw.decoder.andThen fun raw =>
      (ofRaw (within depth) raw).mapError DocumentError.message

/-- **Reads a criteria.** -/
def decoder : Decoder Criteria :=
  Raw.decoder.andThen fun raw =>
    (ofRaw (within raw.data.depth) raw).mapError DocumentError.message

end Criteria

end Playtest
