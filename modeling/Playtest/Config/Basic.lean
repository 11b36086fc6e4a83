import Playtest.Json.Decode

/-!
# Settings of a run

* `Config.timeout?` is the time limit of a whole run, if one is set,
* lists and segments that are named optional do not decide about success,
* a list that is named parallel lets the next one start while it runs.
-/

namespace Playtest

open Playtest.Json

/-- The **settings** of a run. Names are in order, each of them once. -/
structure Config where
  /-- Seconds; none, zero and less mean no limit. -/
  timeout : Option Float
  optionalLists : List String
  optionalSegments : List String
  parallelLists : List String
  /-- The directory in which resource paths begin. -/
  resourceRoot : String
  /-- The directory for what runs leave behind. -/
  outputDir : String

namespace Config

/-- The settings of a run that nobody has set. -/
def default : Config := ⟨none, [], [], [], ".", "rg_results"⟩

/-- A limit that counts. -/
def limit? (timeout : Option Float) : Option Float := timeout.filter fun t => 0.0 < t

/-- The time limit of a whole run. -/
def timeout? (c : Config) : Option Float := limit? c.timeout

/-- Whether a list may fail. -/
def isOptionalList (c : Config) (name : String) : Bool := c.optionalLists.contains name

/-- Whether a segment may fail. -/
def isOptionalSegment (c : Config) (name : String) : Bool := c.optionalSegments.contains name

/-- Whether a list lets the next one start. -/
def isParallelList (c : Config) (name : String) : Bool := c.parallelLists.contains name

/-- Puts a name in its place among others, unless it is there. -/
def insertName (name : String) : List String → List String
  | [] => [name]
  | n :: rest =>
      if name < n then name :: n :: rest
      else if name = n then n :: rest
      else n :: insertName name rest

/-- Names in order, each of them once. -/
def names (ns : List String) : List String := ns.foldl (fun set n => insertName n set) []

/-- Reads names. -/
def namesDecoder : Decoder (List String) := fun s n => (Decoder.text.list s n).map names

/-- The fields of settings. -/
def record : Record Config :=
  Config.mk <$> .fieldMaybe "timeout_s" .float <*> .fieldOr "optional_lists" namesDecoder []
    <*> .fieldOr "optional_segments" namesDecoder [] <*> .fieldOr "parallel_lists" namesDecoder []
    <*> .fieldOr "resource_root" (.text "path string") default.resourceRoot
    <*> .fieldOr "output_dir" (.text "path string") default.outputDir

/-- Reads settings. Fields that settings do not have are refused. -/
def decoder : Decoder Config := record.decoder "struct PlaybackConfig" true

end Config

end Playtest
