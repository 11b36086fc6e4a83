import Playtest.Calendar.Instant
import Playtest.Text.Blank

/-!
# Instants in text

Two ways to write an instant are understood. A *full* one has a date, a time and an offset from
universal time, all fields with their full number of digits, so date and time always take nineteen
bytes and a shorter text is refused before anything in it is looked at. A *local* one has no offset
and is taken as universal time; it is read field by field, so fields may be short, blanks may stand
before a number, and the year may have a sign.

* `Instant.ofFull` reads the first, with the fault that stops it,
* `Instant.ofLocal?` reads the second.
-/

namespace Playtest.Calendar

/-- Why a text is no instant. -/
inductive Fault where
  | outOfRange
  | invalid
  | tooShort
  | tooLong
  deriving Repr, DecidableEq

/-- The wording of a fault. -/
def Fault.message : Fault → String
  | .outOfRange => "input is out of range"
  | .invalid => "input contains invalid characters"
  | .tooShort => "premature end of input"
  | .tooLong => "trailing input"

/-- Reads a part of a text and leaves the rest. -/
abbrev Reader (α : Type) := List Char → Except Fault (α × List Char)

/-- Whether a character is a decimal digit. -/
def isDigit (c : Char) : Bool := '0' ≤ c && c ≤ '9'

/-- The number that digits stand for. -/
def digitsValue (cs : List Char) : Nat := cs.foldl (fun n c => n * 10 + (c.toNat - 48)) 0

/-- Reads a number of at least `least` and at most `most` digits. -/
def number (least most : Nat) : Reader Nat := fun cs =>
  let ds := (cs.take most).takeWhile isDigit
  if least ≤ ds.length then .ok (digitsValue ds, cs.drop ds.length)
  else if (String.ofList cs).utf8ByteSize < least then .error .tooShort
  else .error .invalid

/-- Reads a number without a limit to its digits. -/
def anyNumber : Reader Nat := fun cs => number 1 cs.length cs

/-- Reads one character. -/
def exactly (c : Char) : Reader Unit := fun cs =>
  match cs with
  | [] => .error .tooShort
  | d :: rest => if c = d then .ok ((), rest) else .error .invalid

/-- A field that has to lie in a range. -/
def within (low high n : Nat) : Except Fault Nat :=
  if low ≤ n ∧ n ≤ high then .ok n else .error .outOfRange

/-- Reads the digits of a fraction as nanoseconds; digits after the ninth do not count. -/
def nanoseconds : Reader Nat := fun cs => do
  let (_, _) ← number 1 9 cs
  let ds := cs.takeWhile isDigit
  let kept := ds.take 9
  return (digitsValue kept * Nat.pow 10 (9 - kept.length), cs.drop ds.length)

/-- Reads a fraction if there is a point. -/
def fraction : Reader Nat := fun cs =>
  match cs with
  | '.' :: rest => nanoseconds rest
  | _ => .ok (0, cs)

/-- Reads two digits. -/
def twoDigits (cs : List Char) : Except Fault (Nat × Nat × List Char) :=
  match cs with
  | a :: b :: rest =>
      if isDigit a ∧ isDigit b then .ok (a.toNat - 48, b.toNat - 48, rest) else .error .invalid
  | [a] => if 1 < a.utf8Size then .error .invalid else .error .tooShort
  | [] => .error .tooShort

/-- Reads an offset from universal time, in seconds; hours may be as many as two digits can say. -/
def offset : Reader Int := fun cs => do
  let signed (negative : Bool) (cs : List Char) : Except Fault (Int × List Char) := do
    let (h₁, h₀, cs) ← twoDigits cs
    let (_, cs) ← exactly ':' cs
    let (m₁, m₀, cs) ← twoDigits cs
    if 6 ≤ m₁ then throw .outOfRange
    let seconds : Int := (h₁ * 10 + h₀) * 3600 + (m₁ * 10 + m₀) * 60
    return (if negative then -seconds else seconds, cs)
  match cs with
  | [] => throw .tooShort
  | c :: rest =>
      if c = 'Z' ∨ c = 'z' then return (0, rest)
      else if c = '+' then signed false rest
      else if c = '-' ∨ c = '\u2212' then signed true rest
      else throw .invalid

/-- The day of a date. -/
def dayOf (year : Int) (month day : Nat) : Except Fault Int :=
  match dayNumber? year month day with
  | some d => .ok d
  | none => .error .outOfRange

/-- A time of a day as an instant. The sixtieth second is a leap second. -/
def timeOf (day : Int) (hour minute second nano : Nat) : Instant :=
  let s : Int := day * 86400 + hour * 3600 + minute * 60
  if second = 60 then ⟨s + 59, 1000000000 + nano⟩ else ⟨s + second, nano⟩

/-- How many bytes the date and the time of a full instant take. -/
def fullSize : Nat := 19

/-- Reads a number with a fixed number of digits. -/
def fixedNumber (count : Nat) : Reader Nat := fun cs =>
  let ds := cs.take count
  if ds.length = count ∧ ds.all isDigit then .ok (digitsValue ds, cs.drop count)
  else .error .invalid

/-- Reads what stands between the date and the time of a full instant. -/
def fullSeparator : Reader Unit := fun cs =>
  match cs with
  | c :: rest => if c = 't' ∨ c = 'T' ∨ c = ' ' then .ok ((), rest) else .error .invalid
  | [] => .error .invalid

/-- Reads a full instant. The date is settled before the time is looked at, the time before the
offset, and the offset after it is clear that nothing follows it. -/
def Instant.ofFull (text : String) : Except Fault Instant := do
  if text.utf8ByteSize < fullSize then throw .tooShort
  let (year, cs) ← fixedNumber 4 text.toList
  let (_, cs) ← exactly '-' cs
  let (month, cs) ← fixedNumber 2 cs
  let (_, cs) ← exactly '-' cs
  let (day, cs) ← fixedNumber 2 cs
  let date ← dayOf year month day
  let (_, cs) ← fullSeparator cs
  let (hour, cs) ← fixedNumber 2 cs
  let (_, cs) ← exactly ':' cs
  let (minute, cs) ← fixedNumber 2 cs
  let (_, cs) ← exactly ':' cs
  let (second, cs) ← fixedNumber 2 cs
  let (nano, cs) ← fraction cs
  let hour ← within 0 23 hour
  let minute ← within 0 59 minute
  let second ← within 0 60 second
  let (shift, cs) ← offset cs
  if !cs.isEmpty then throw .tooLong
  if 86400 ≤ shift.natAbs then throw .outOfRange
  let t := timeOf date hour minute second nano
  return { t with seconds := t.seconds - shift }

/-- Reads a number of at most two digits, with blanks before it. -/
def shortField (low high : Nat) : Reader Nat := fun cs => do
  let (n, cs) ← number 1 2 (Text.trimFront cs)
  return (← within low high n, cs)

/-- Reads a year: up to four digits, or a sign and any number of digits. -/
def yearField : Reader Int := fun cs =>
  match Text.trimFront cs with
  | '-' :: rest => (anyNumber rest).map fun (n, cs) => (-(n : Int), cs)
  | '+' :: rest => (anyNumber rest).map fun (n, cs) => ((n : Int), cs)
  | cs => (number 1 4 cs).map fun (n, cs) => ((n : Int), cs)

/-- Reads what stands between date and time. -/
abbrev Separator := Reader Unit

/-- Date and time are separated by the letter T. -/
def letterT : Separator := exactly 'T'

/-- Date and time are separated by blanks, or by nothing. -/
def blanks : Separator := fun cs => .ok ((), Text.trimFront cs)

/-- Reads a local instant with one kind of separator. -/
def localWith (separator : Separator) (text : String) : Except Fault Instant := do
  let (year, cs) ← yearField text.toList
  let (_, cs) ← exactly '-' cs
  let (month, cs) ← shortField 1 12 cs
  let (_, cs) ← exactly '-' cs
  let (day, cs) ← shortField 1 31 cs
  let (_, cs) ← separator cs
  let (hour, cs) ← shortField 0 23 cs
  let (_, cs) ← exactly ':' cs
  let (minute, cs) ← shortField 0 59 cs
  let (_, cs) ← exactly ':' cs
  let (second, cs) ← shortField 0 60 cs
  let (nano, cs) ← fraction cs
  if !cs.isEmpty then throw .tooLong
  let date ← dayOf year month day
  return timeOf date hour minute second nano

/-- Reads a local instant. -/
def Instant.ofLocal? (text : String) : Option Instant :=
  match localWith letterT text with
  | .ok t => some t
  | .error _ => (localWith blanks text).toOption

end Playtest.Calendar
