/-!
# Base64

Bytes as text over the 64-letter alphabet, four letters for three bytes, filled up with `=`. Reading
is strict: the text has full groups of four, no bits beyond the last byte, and nothing else in it.

* `encode` and `decode` are the two directions,
* `Fault` says what is wrong with a text, and `Fault.message` words it.
-/

namespace Playtest.Text.Base64

/-- Why a text stands for no bytes. Offsets count bytes. -/
inductive Fault where
  | symbol (offset : Nat) (byte : UInt8)
  | lastSymbol (offset : Nat) (byte : UInt8)
  | length (n : Nat)
  | padding
  deriving Repr, DecidableEq

/-- The wording of a fault. -/
def Fault.message : Fault → String
  | .symbol offset byte => s!"Invalid symbol {byte.toNat}, offset {offset}."
  | .lastSymbol offset byte => s!"Invalid last symbol {byte.toNat}, offset {offset}."
  | .length n => s!"Invalid input length: {n}"
  | .padding => "Invalid padding"

/-- The letter for six bits. -/
def letter (n : Nat) : Char :=
  if n < 26 then Char.ofNat (65 + n)
  else if n < 52 then Char.ofNat (97 + (n - 26))
  else if n < 62 then Char.ofNat (48 + (n - 52))
  else if n = 62 then '+'
  else '/'

/-- The six bits of a letter. -/
def sextet? (b : UInt8) : Option Nat :=
  let n := b.toNat
  if 65 ≤ n ∧ n ≤ 90 then some (n - 65)
  else if 97 ≤ n ∧ n ≤ 122 then some (n - 97 + 26)
  else if 48 ≤ n ∧ n ≤ 57 then some (n - 48 + 52)
  else if n = 43 then some 62
  else if n = 47 then some 63
  else none

/-- The letters of a list of bytes. -/
def letters : List UInt8 → List Char
  | [] => []
  | [a] => [letter (a.toNat / 4), letter (a.toNat % 4 * 16), '=', '=']
  | [a, b] =>
      [letter (a.toNat / 4), letter (a.toNat % 4 * 16 + b.toNat / 16), letter (b.toNat % 16 * 4),
       '=']
  | a :: b :: c :: rest =>
      letter (a.toNat / 4) :: letter (a.toNat % 4 * 16 + b.toNat / 16)
        :: letter (b.toNat % 16 * 4 + c.toNat / 64) :: letter (c.toNat % 64) :: letters rest

/-- Bytes as text. -/
def encode (bytes : List UInt8) : String := String.ofList (letters bytes)

/-- The bytes of the groups before the last one. They are full groups of letters; the first byte
that is no letter is a fault. -/
def wholeGroups : (offset : Nat) → List UInt8 → Except Fault (List UInt8)
  | offset, a :: b :: c :: d :: rest => do
      let w ← (sextet? a).elim (.error (.symbol offset a)) .ok
      let x ← (sextet? b).elim (.error (.symbol (offset + 1) b)) .ok
      let y ← (sextet? c).elim (.error (.symbol (offset + 2) c)) .ok
      let z ← (sextet? d).elim (.error (.symbol (offset + 3) d)) .ok
      let more ← wholeGroups (offset + 4) rest
      return UInt8.ofNat (w * 4 + x / 16) :: UInt8.ofNat (x % 16 * 16 + y / 4)
        :: UInt8.ofNat (y % 4 * 64 + z) :: more
  | _, _ => .ok []

/-- The byte that fills up the last group. -/
def pad : UInt8 := 61

/-- Reads the last group, which begins at `start`: its letters with their bytes, and how many pads
follow them. A pad stands behind at least two letters, and no letter behind a pad. -/
def lastGroup (start : Nat) :
    (index : Nat) → (letters : List (UInt8 × Nat)) → (pads : Nat) → List UInt8 →
      Except Fault (List (UInt8 × Nat) × Nat)
  | _, ls, pads, [] => .ok (ls.reverse, pads)
  | index, ls, pads, b :: rest =>
      if b = pad then
        if index < 2 then .error (.symbol (start + index) b)
        else lastGroup start (index + 1) ls (pads + 1) rest
      else if 0 < pads then .error (.symbol (start + index - pads) pad)
      else
        match sextet? b with
        | none => .error (.symbol (start + index) b)
        | some n => lastGroup start (index + 1) ((b, n) :: ls) pads rest

/-- The bytes of the last group's letters. Bits that belong to no byte must be zero. -/
def lastBytes (start : Nat) : List (UInt8 × Nat) → Except Fault (List UInt8)
  | [(_, w), (last, x)] =>
      if x % 16 = 0 then .ok [UInt8.ofNat (w * 4 + x / 16)]
      else .error (.lastSymbol (start + 1) last)
  | [(_, w), (_, x), (last, y)] =>
      if y % 4 = 0 then .ok [UInt8.ofNat (w * 4 + x / 16), UInt8.ofNat (x % 16 * 16 + y / 4)]
      else .error (.lastSymbol (start + 2) last)
  | [(_, w), (_, x), (_, y), (_, z)] =>
      .ok [UInt8.ofNat (w * 4 + x / 16), UInt8.ofNat (x % 16 * 16 + y / 4),
        UInt8.ofNat (y % 4 * 64 + z)]
  | _ => .ok []

/-- The bytes of a text. A text of length `4 n + 1` that ends in neither a letter nor a pad is
faulted for that byte before anything else is looked at. -/
def decodeBytes (input : List UInt8) : Except Fault (List UInt8) := do
  let excess := input.length % 4
  if excess = 1 then
    match input.getLast? with
    | some b =>
        if b ≠ pad ∧ (sextet? b).isNone then throw (.symbol (input.length - 1) b)
    | none => pure ()
  let start := if excess = 0 then input.length - 4 else input.length - excess
  let front ← wholeGroups 0 (input.take start)
  let (ls, pads) ← lastGroup start 0 [] 0 (input.drop start)
  if input ≠ [] ∧ ls.length < 2 then throw (.length (start + ls.length))
  if (pads + ls.length) % 4 ≠ 0 then throw .padding
  let back ← lastBytes start ls
  return front ++ back

/-- **Text to bytes.** -/
def decode (s : String) : Except Fault (List UInt8) := decodeBytes s.toUTF8.toList

end Playtest.Text.Base64
