/-!
# Versions of the document format

Every criteria, action, segment and list says which version of the format it needs.
`Version.current` is the highest that can be played; a document that needs a later one is refused.
-/

namespace Playtest

/-- A version of the document format. -/
abbrev Version := UInt32

namespace Version

/-- The first version, and the one that is meant where a document says none. -/
def first : Version := 1

/-- The highest version that can be played. -/
def current : Version := 12

/-- The highest of some versions, at least `v`. -/
def highest (v : Version) (vs : List Version) : Version := vs.foldl max v

end Version

/-- What a document that is well formed by itself may still get wrong. -/
inductive DocumentError where
  | unknownCriteria (type : String)
  | criteriaData (kind : String) (reason : String)
  | unsupported (subject : String) (required : Version)
  | ambiguousEntry
  | emptySequence (name : String)
  | missing (field : String)
  deriving Repr, DecidableEq

/-- The wording of a document error. -/
def DocumentError.message : DocumentError → String
  | .unknownCriteria type => s!"Unknown criteria type `{type}`"
  | .criteriaData kind reason => s!"Invalid data for `{kind}` criteria: {reason}"
  | .unsupported subject required =>
      s!"{subject} requires API version {required.toNat}, but the highest supported version is "
        ++ s!"{Version.current.toNat}"
  | .ambiguousEntry =>
      "Sequence entry must have exactly one of `path`, `segmentList` or `segment`"
  | .emptySequence name => s!"Sequence `{name}` has no entries"
  | .missing field => s!"Missing required field `{field}`"

end Playtest
