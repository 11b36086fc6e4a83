/-!
# Sets of characters

A set of characters is a table of closed ranges of code points, ascending and apart, so that
membership is a search by halving (`isWithin`). The table of hidden characters follows Unicode 17,
the tables that tell how wide a character is follow Unicode 18.
-/

namespace Playtest.Text

/-- Closed ranges of code points, ascending and apart. -/
abbrev Ranges := Array (Nat × Nat)

/-- Looks for the range that holds `n` by halving the part of the table between two positions. -/
def Ranges.search (table : Ranges) (n : Nat) : (fuel low high : Nat) → Bool
  | 0, _, _ => false
  | fuel + 1, low, high =>
      if high ≤ low then false
      else
        let middle := (low + high) / 2
        match table[middle]? with
        | none => false
        | some (first, last) =>
            if n < first then search table n fuel low middle
            else if last < n then search table n fuel (middle + 1) high
            else true

/-- Whether a character is in a table of ranges. Each step of the search at least halves what is
left, so as many steps as there are ranges are enough. -/
def isWithin (table : Ranges) (c : Char) : Bool :=
  table.search c.toNat (table.size + 1) 0 table.size

end Playtest.Text
