import Playtest.Text.Blank
import Playtest.Text.Search

/-!
# Names of objects

An object is called by its name or, without one, by the types of its components. Copies of one
object are told apart by suffixes such as ` (Clone)` or ` (3)`; a *normalized* name has none of
them, so that all copies have the same.

* `normalizeName` strips trailing blanks and suffixes,
* `compositeIdentity` is the name of an object after its components.
-/

namespace Playtest.Scene

open Playtest.Text

/-- One suffix cut off, with the blanks before it. The characters are in reverse. Nothing is cut
when there is no suffix, or when nothing would be left in front of it. -/
def cutSuffix? : List Char → Option (List Char)
  | ')' :: rest =>
      match rest.dropWhile (· ≠ '(') with
      | _ :: c :: cs => some ((c :: cs).dropWhile isBlank)
      | _ => none
  | _ => none

/-- Cutting a suffix shortens a name. -/
theorem length_lt_of_cutSuffix? {cs ds : List Char} (h : cutSuffix? cs = some ds) :
    ds.length < cs.length := by
  unfold cutSuffix? at h
  split at h
  · rename_i rest
    split at h
    · rename_i x c cs' heq
      obtain rfl := Option.some.inj h
      have h₁ := (List.dropWhile_sublist (fun a => decide (a ≠ '(')) (l := rest)).length_le
      have h₂ := (List.dropWhile_sublist isBlank (l := c :: cs')).length_le
      rw [heq] at h₁
      simp only [List.length_cons] at h₁ h₂ ⊢
      omega
    · simp at h
  · simp at h

/-- Cuts suffixes off a name in reverse as long as there are any. -/
def stripSuffixes (cs : List Char) : List Char :=
  match _h : cutSuffix? cs with
  | some ds => stripSuffixes ds
  | none => cs
  termination_by cs.length
  decreasing_by exact length_lt_of_cutSuffix? _h

/-- The name without trailing blanks and suffixes. -/
def normalizeChars (cs : List Char) : List Char :=
  (stripSuffixes (cs.reverse.dropWhile isBlank)).reverse

/-- The **normalized** form of a name. -/
def normalizeName (name : String) : String := String.ofList (normalizeChars name.toList)

/-- The name of a component type without the names of what contains it. -/
def shortName (component : String) : String :=
  String.ofList (behindLast ['.'] (behindLast [':', ':'] component.toList))

/-- The name of an object after its components: their short names in order. -/
def compositeIdentity (components : List String) : String :=
  let sorted := (components.map shortName).mergeSort fun a b => !(b < a)
  "Entity-" ++ ",".intercalate sorted

end Playtest.Scene
