/-!
# Blank characters

The 25 characters with the Unicode property White_Space, and trimming by them. Names, resource paths
and lines are blank or trimmed in this sense everywhere in the library.
-/

namespace Playtest.Text

/-- Closed ranges of code points, ascending and apart. -/
def blankRanges : List (Nat × Nat) :=
  [(0x09, 0x0D), (0x20, 0x20), (0x85, 0x85), (0xA0, 0xA0), (0x1680, 0x1680), (0x2000, 0x200A),
   (0x2028, 0x2029), (0x202F, 0x202F), (0x205F, 0x205F), (0x3000, 0x3000)]

/-- Whether a character is white space. -/
def isBlank (c : Char) : Bool :=
  blankRanges.any fun (first, last) => first ≤ c.toNat && c.toNat ≤ last

/-- Drops blanks in front. -/
def trimFront (cs : List Char) : List Char := cs.dropWhile isBlank

/-- Drops blanks behind. -/
def trimBack (cs : List Char) : List Char := (cs.reverse.dropWhile isBlank).reverse

/-- Drops blanks on both sides. -/
def trim (cs : List Char) : List Char := trimBack (trimFront cs)

/-- Whether a text has blanks only. -/
def allBlank (s : String) : Bool := s.toList.all isBlank

/-- The text without the blanks around it. -/
def trimmed (s : String) : String := String.ofList (trim s.toList)

end Playtest.Text
