import Playtest.Resource.Tree
import Playtest.Result.Basic
import Playtest.Text.Lines

/-!
# Files of results

A file of results has one result on each line. New results go to its end.

* `RunResult.appendTo` puts a result into a file,
* `RunResult.loadAll` reads the results in a file.
-/

namespace Playtest.RunResult

open Playtest.Json Playtest.Resource

/-- Why results cannot be read from a file. -/
inductive StoreError where
  | unreadable (fault : FileFault)
  | badLine (reason : DecodeError)

/-- The line under which a result is stored. -/
def line (r : RunResult) : String := r.render ++ "\n"

/-- **Puts a result at the end of a file.** -/
def appendTo (r : RunResult) (t : Tree) (path : String) : Except FileFault Tree :=
  t.append path r.line

/-- The results on some lines. -/
def onLines : List (Nat × String) → Except DecodeError (List RunResult)
  | [] => .ok []
  | (_, line) :: rest =>
      match decoder.ofText line with
      | .error e => .error e
      | .ok r => (onLines rest).map (r :: ·)

/-- The results in a text. -/
def ofLines (text : String) : Except DecodeError (List RunResult) := onLines (Text.records text)

/-- **Reads the results in a file.** -/
def loadAll (t : Tree) (path : String) : Except StoreError (List RunResult) :=
  match t.readLines path with
  | .error fault => .error (.unreadable fault)
  | .ok (text, fault) =>
      match ofLines text, fault with
      | .error reason, _ => .error (.badLine reason)
      | .ok _, some fault => .error (.unreadable fault)
      | .ok results, none => .ok results

end Playtest.RunResult
