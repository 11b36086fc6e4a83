/-!
# Searching in text

Whether a text contains another, and the part of a text behind the last of some mark.
-/

namespace Playtest.Text

/-- Whether `needle` stands somewhere in a list of characters. -/
def hasPart (needle : List Char) : List Char → Bool
  | [] => needle.isEmpty
  | c :: cs => needle.isPrefixOf (c :: cs) || hasPart needle cs

/-- Whether `part` stands somewhere in `text`. -/
def contains (text part : String) : Bool := hasPart part.toList text.toList

/-- The characters before the first `mark`, all of them without one. -/
def upTo (mark : List Char) : List Char → List Char
  | [] => []
  | c :: cs => if mark.isPrefixOf (c :: cs) then [] else c :: upTo mark cs

/-- The characters behind the last `mark`, all of them without one. -/
def behindLast (mark : List Char) (cs : List Char) : List Char :=
  (upTo mark.reverse cs.reverse).reverse

end Playtest.Text
