import Playtest.Config.Basic
import Playtest.Config.Notation

/-!
# Reading settings

Every setting stands once at most, has a name that is known and a value of its kind. Everything else
is rejected without a reason.
-/

namespace Playtest.Config

/-- What is said about a text that is rejected. -/
def rejectedMessage : String := "Invalid playback config"

/-- The settings with one more of them set. -/
def set? (c : Config) (key : String) : Setting → Option Config
  | .number x => if key = "timeout_s" then some { c with timeout := some x } else none
  | .text s =>
      if key = "resource_root" then some { c with resourceRoot := s }
      else if key = "output_dir" then some { c with outputDir := s }
      else none
  | .texts ss =>
      if key = "optional_lists" then some { c with optionalLists := names ss }
      else if key = "optional_segments" then some { c with optionalSegments := names ss }
      else if key = "parallel_lists" then some { c with parallelLists := names ss }
      else none

/-- Sets what is known about some settings. -/
def setAll? (c : Config) : List (String × Setting) → Option Config
  | [] => some c
  | (key, value) :: rest =>
      if rest.any fun e => e.1 == key then none
      else (set? c key value).bind fun c => setAll? c rest

/-- **Reads settings.** -/
def ofText? (text : String) : Option Config := (settingsOf? text).bind (setAll? default)

end Playtest.Config
