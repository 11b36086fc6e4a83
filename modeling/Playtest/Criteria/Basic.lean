import Playtest.Version
import Playtest.Vision.Screenshot

/-!
# Criteria

A criteria is a condition on the state of the game. It is a single test, or a group of criteria of
which all or any have to hold. Each criteria names the version of the format it needs, and may be
*transient*: once met, it stays met for the rest of its segment.

* `Criteria` is the type, `CriteriaKind` the name of the test or group,
* `Criteria.of` and `Criteria.ofGroup` build criteria at the version that introduced their kind,
* `Criteria.effectiveVersion` is the highest version named anywhere in a criteria.
-/

namespace Playtest

open Playtest.Json

/-- The kinds of criteria. -/
inductive CriteriaKind where
  | void
  | normalizedPath
  | partialNormalizedPath
  | value
  | cvText
  | cvImage
  | cvObjectDetection
  | validationsComplete
  | actionComplete
  | and
  | or
  | custom
  deriving Repr, DecidableEq

namespace CriteriaKind

/-- All kinds. -/
def all : List CriteriaKind :=
  [.void, .normalizedPath, .partialNormalizedPath, .value, .cvText, .cvImage, .cvObjectDetection,
   .validationsComplete, .actionComplete, .and, .or, .custom]

/-- The name of a kind in documents. -/
def name : CriteriaKind → String
  | .void => "Void"
  | .normalizedPath => "NormalizedPath"
  | .partialNormalizedPath => "PartialNormalizedPath"
  | .value => "Value"
  | .cvText => "CVText"
  | .cvImage => "CVImage"
  | .cvObjectDetection => "CVObjectDetection"
  | .validationsComplete => "ValidationsComplete"
  | .actionComplete => "ActionComplete"
  | .and => "And"
  | .or => "Or"
  | .custom => "Custom"

/-- Whether two texts are the same up to the case of ASCII letters. -/
def sameLetters (a b : String) : Bool :=
  a.toList.map Char.toLower == b.toList.map Char.toLower

/-- The kind with a name, whatever the case of its letters. -/
def ofName? (text : String) : Option CriteriaKind :=
  all.find? fun kind => sameLetters kind.name text

/-- The version in which a kind first appeared. -/
def introducedIn : CriteriaKind → Version
  | .void | .normalizedPath | .and | .or => 1
  | .partialNormalizedPath => 7
  | .cvText => 8
  | .cvImage => 9
  | .actionComplete => 11
  | .value | .cvObjectDetection | .validationsComplete | .custom => 12

end CriteriaKind

/-- How several criteria are combined. -/
inductive Join where
  | all
  | any
  deriving Repr, DecidableEq

/-- What a number of entities is compared with. -/
inductive CountRule where
  | zero
  | nonZero
  | greaterThanEqual
  | lessThanEqual
  deriving Repr, DecidableEq

/-- How many entities have to be at a path, and how many have to have come or gone since the last
key frame. -/
structure PathTest where
  path : String
  countRule : CountRule
  count : UInt64
  addedCount : UInt64
  removedCount : UInt64
  deriving Repr, DecidableEq

/-- What is asked of an attribute's value. -/
inductive ValueOperator where
  | equals (expected : Value)
  /-- A part of a text, or a member of an array. -/
  | contains (part : Value)
  /-- Between two numbers, or between two vectors component by component. -/
  | range (min max : Value)

/-- What an attribute of the entities at a path has to be. -/
structure ValueTest where
  path : String
  attributeName : String
  operator : ValueOperator

/-- What a vision criteria looks for. -/
inductive VisionKind where
  | text
  | image
  | object
  deriving Repr, DecidableEq

/-- What the vision service is asked. -/
structure VisionQuery where
  textQuery : Option String
  /-- A picture as base64 text. -/
  imageQuery : Option String
  withinRect : Option Vision.Rect
  threshold : Float32

/-- A single test. -/
inductive Test where
  | void
  | path (isPartial : Bool) (test : PathTest)
  | value (test : ValueTest)
  | vision (kind : VisionKind) (query : VisionQuery)
  /-- No validation is pending, or the given seconds have passed. -/
  | validations (timeout : Float)
  | actionComplete
  | custom (predicate : String) (args : Value)

/-- The kind of a test. -/
def Test.kind : Test → CriteriaKind
  | .void => .void
  | .path false _ => .normalizedPath
  | .path true _ => .partialNormalizedPath
  | .value _ => .value
  | .vision .text _ => .cvText
  | .vision .image _ => .cvImage
  | .vision .object _ => .cvObjectDetection
  | .validations _ => .validationsComplete
  | .actionComplete => .actionComplete
  | .custom _ _ => .custom

/-- The kind of a group. -/
def Join.kind : Join → CriteriaKind
  | .all => .and
  | .any => .or

/-- A **criteria**: one test, or a group. -/
inductive Criteria where
  | single (apiVersion : Version) (transient : Bool) (test : Test)
  | group (apiVersion : Version) (transient : Bool) (join : Join) (members : List Criteria)

namespace Criteria

/-- The version a criteria names. -/
def apiVersion : Criteria → Version
  | single v _ _ => v
  | group v _ _ _ => v

/-- Whether a criteria stays met once it was met. -/
def isTransient : Criteria → Bool
  | single _ t _ => t
  | group _ t _ _ => t

/-- The kind of a criteria. -/
def kind : Criteria → CriteriaKind
  | single _ _ test => test.kind
  | group _ _ join _ => join.kind

/-- A test at the version that introduced it. -/
def of (test : Test) : Criteria := single test.kind.introducedIn false test

/-- A group at the version that introduced it. -/
def ofGroup (join : Join) (members : List Criteria) : Criteria :=
  group join.kind.introducedIn false join members

/-- The criteria that always holds. -/
def void : Criteria := of .void

/-- The same criteria, transient. -/
def transient : Criteria → Criteria
  | single v _ test => single v true test
  | group v _ join members => group v true join members

/-- The same condition, neither transient nor at another version than the one that introduced it. -/
def renewed : Criteria → Criteria
  | single _ _ test => of test
  | group _ _ join members => ofGroup join members

mutual

/-- The highest version named in a criteria or below it. -/
def effectiveVersion : Criteria → Version
  | single v _ _ => v
  | group v _ _ members => effectiveVersions v members

/-- The highest version named in some criteria, at least `v`. -/
def effectiveVersions (v : Version) : List Criteria → Version
  | [] => v
  | c :: cs => effectiveVersions (max v (effectiveVersion c)) cs

end

end Criteria

end Playtest
