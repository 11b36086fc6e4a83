import Playtest.Text.Blank

/-!
# Resource paths

How documents name other documents: a relative path below the resource root, with forward slashes,
that ends in `.json`.

* `resourcePath?` brings a path into this form, if it has one,
* `joinPath` is a path as it is seen from a directory.
-/

namespace Playtest.Resource

/-- What every file of a document ends in. -/
def suffix : List Char := ".json".toList

/-- A path with forward slashes and without blanks around it. -/
def slashed (path : String) : List Char :=
  (Text.trim path.toList).map fun c => if c = '\\' then '/' else c

/-- Whether a path begins with the letter of a drive. -/
def hasDrive : List Char → Bool
  | letter :: ':' :: _ => letter.isAlpha
  | _ => false

/-- Whether a path begins somewhere else than below the resource root, or is no path at all. -/
def isForeign (cs : List Char) : Bool := cs.isEmpty || cs.head? == some '/' || hasDrive cs

/-- A path that ends as documents do. -/
def withSuffix (cs : List Char) : List Char := if suffix.isSuffixOf cs then cs else cs ++ suffix

/-- **The file that a resource path means**, relative to the resource root. -/
def resourcePath? (path : String) : Option String :=
  if isForeign (slashed path) then none else some (String.ofList (withSuffix (slashed path)))

/-- What is said about a path that means no file. -/
def foreignMessage (path : String) : String :=
  s!"Resource path `{path}` must be a non-empty relative path"

/-- The path `rest` as it is seen from `base`. A path that begins at the top stays as it is. -/
def joinPath (base rest : String) : String :=
  if rest.toList.head? = some '/' ∨ base = "" then rest
  else if base.toList.getLast? = some '/' then base ++ rest
  else base ++ "/" ++ rest

end Playtest.Resource
