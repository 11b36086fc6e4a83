import Playtest.Number.Decimal

/-!
# Written numbers

Decimal notation as it is read from settings and command lines: a sign, digits, a point and digits
behind it, and an exponent. The two differ in what they let out.

* `floatOf` is the number that parts of a notation mean,
* `ofText?` reads a number from a command line.
-/

namespace Playtest.Number

/-- The number that digits mean. -/
def valueOf (base : Nat) (digits : List Char) : Nat :=
  digits.foldl (fun n c => n * base + (if c.isDigit then c.toNat - 48 else c.toLower.toNat - 87)) 0

/-- A sign, and what follows it. Without a sign the number is positive. -/
def signOf : List Char → Bool × List Char
  | '-' :: rest => (true, rest)
  | '+' :: rest => (false, rest)
  | cs => (false, cs)

/-- A number with a sign. -/
def signed (negative : Bool) (x : Float) : Float := if negative then -x else x

/-- The number that the digits before and behind a point and an exponent mean. What is too large is
infinite. -/
def floatOf (negative : Bool) (whole part : List Char) (exponent : Int) : Float :=
  signed negative
    ((ofDecimal? (valueOf 10 (whole ++ part)) (exponent - part.length)).getD (1.0 / 0.0))

/-- A notation cut into what is before the exponent and the exponent itself. -/
def cutExponent (cs : List Char) : List Char × Option (List Char) :=
  match cs.dropWhile fun c => c != 'e' && c != 'E' with
  | [] => (cs, none)
  | _ :: exponent => (cs.takeWhile fun c => c != 'e' && c != 'E', some exponent)

/-- A notation cut at its point. -/
def cutPoint (cs : List Char) : List Char × Option (List Char) :=
  match cs.dropWhile fun c => c != '.' with
  | [] => (cs, none)
  | _ :: part => (cs.takeWhile fun c => c != '.', some part)

/-- The number that an exponent means. -/
def exponentOf (cs : List Char) : Int :=
  let (negative, digits) := signOf cs
  if negative then -(valueOf 10 digits : Int) else valueOf 10 digits

/-- Whether characters are digits and nothing else. -/
def allDigits (cs : List Char) : Bool := cs.all Char.isDigit

/-- Whether an exponent is digits, perhaps behind a sign. -/
def isExponent (cs : List Char) : Bool :=
  let digits := (signOf cs).2
  !digits.isEmpty && allDigits digits

/-- The number without digits that a word means, in capital or small letters. -/
def special? (word : List Char) : Option Float :=
  match String.ofList (word.map Char.toLower) with
  | "inf" | "infinity" => some (1.0 / 0.0)
  | "nan" => some (0.0 / 0.0)
  | _ => none

/-- **Reads a number from a command line.** There has to be a digit on one side of the point. -/
def ofText? (text : String) : Option Float :=
  let (negative, cs) := signOf text.toList
  match special? cs with
  | some x => some (signed negative x)
  | none =>
      let (mantissa, exponent) := cutExponent cs
      let (whole, part) := cutPoint mantissa
      let part := part.getD []
      if allDigits whole && allDigits part && !(whole.isEmpty && part.isEmpty)
          && exponent.all isExponent then
        some (floatOf negative whole part (exponentOf (exponent.getD [])))
      else none

end Playtest.Number
