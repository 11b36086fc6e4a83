/-!
# Binary floating numbers as exact values

A finite floating number is `± significand * 2 ^ exponent`. This module takes the encodings of the
64-bit and the 32-bit format apart into that form and puts the nearest representable value together
again, in exact integer arithmetic, so that every other question about a float (its digits, its
neighbours, its narrowing to 32 bits, its whole part) is a question about integers.

* `Format.unpack` reads an encoding, `Format.encode` writes the nearest one (ties to even).
* `narrow` and `widen` go between the two formats by composing the two.
* `wholePart?` is the integer towards zero.

Powers are spelled `Nat.pow`, which means the same whatever algebra is in scope.
-/

namespace Playtest.Number

/-- A **binary format**: how many bits a significand has, how many the exponent field has, and the
exponent that belongs to the last place of the smallest numbers. -/
structure Format where
  precision : Nat
  exponentBits : Nat
  leastExponent : Int

/-- The 64-bit format. -/
def Format.double : Format := ⟨53, 11, -1074⟩

/-- The 32-bit format. -/
def Format.single : Format := ⟨24, 8, -149⟩

/-- What an encoding stands for. -/
inductive Unpacked where
  | notANumber
  | infinite (negative : Bool)
  | finite (negative : Bool) (significand : Nat) (exponent : Int)
  deriving Repr, DecidableEq

namespace Format

/-- The encoding of positive infinity: all exponent bits set. -/
def infinityBits (f : Format) : Nat := (Nat.pow 2 f.exponentBits - 1) * Nat.pow 2 (f.precision - 1)

/-- Takes an encoding apart. The hidden leading bit is made explicit. -/
def unpack (f : Format) (bits : Nat) : Unpacked :=
  let fraction := bits % Nat.pow 2 (f.precision - 1)
  let field := bits / Nat.pow 2 (f.precision - 1) % Nat.pow 2 f.exponentBits
  let negative := bits / Nat.pow 2 (f.precision - 1 + f.exponentBits) % 2 == 1
  if field == Nat.pow 2 f.exponentBits - 1 then
    if fraction == 0 then .infinite negative else .notANumber
  else if field == 0 then .finite negative fraction f.leastExponent
  else .finite negative (Nat.pow 2 (f.precision - 1) + fraction) (f.leastExponent + field - 1)

/-- Half of the distance between two neighbours goes to the even one. -/
def shiftRightEven (n k : Nat) : Nat :=
  let q := n / Nat.pow 2 k
  let r := n % Nat.pow 2 k
  if 2 * r < Nat.pow 2 k then q
  else if Nat.pow 2 k < 2 * r then q + 1
  else q + q % 2

/-- The encoding of the magnitude nearest to `significand * 2 ^ exponent`, ties to even; beyond the
largest finite number that is infinity. A carry out of the significand moves into the exponent field
by itself, because the hidden bit counts as one unit of that field. -/
def encodeMagnitude (f : Format) (significand : Nat) (exponent : Int) : Nat :=
  if significand == 0 then 0
  else
    let width : Int := (significand.log2 : Int) + 1
    let last := max (exponent + width - f.precision) f.leastExponent
    let scaled :=
      if last ≤ exponent then significand * Nat.pow 2 (exponent - last).toNat
      else shiftRightEven significand (last - exponent).toNat
    min ((last - f.leastExponent).toNat * Nat.pow 2 (f.precision - 1) + scaled) f.infinityBits

/-- The encoding of the number nearest to `± significand * 2 ^ exponent`. -/
def encode (f : Format) (negative : Bool) (significand : Nat) (exponent : Int) : Nat :=
  (if negative then Nat.pow 2 (f.precision - 1 + f.exponentBits) else 0)
    + f.encodeMagnitude significand exponent

/-- The encoding of the magnitude nearest to `n / d * 2 ^ exponent`, ties to even. The quotient is
taken to at least two places more than a significand has, and one place behind them says whether
anything is left, so that rounding what is kept is rounding the exact quotient. -/
def encodeQuotient (f : Format) (n d : Nat) (exponent : Int) : Nat :=
  let shift := f.precision + 2 + d.log2 - n.log2
  let scaled := n * Nat.pow 2 shift
  f.encodeMagnitude (2 * (scaled / d) + (if scaled % d == 0 then 0 else 1)) (exponent - shift - 1)

/-- The encoding of the product of two magnitudes, rounded once. What is not finite stays as it
is. -/
def multiply (f : Format) (a b : Nat) : Nat :=
  match f.unpack a, f.unpack b with
  | .finite _ m p, .finite _ n q => f.encodeMagnitude (m * n) (p + q)
  | _, _ => a

/-- The encoding of the quotient of two magnitudes, rounded once. What is not finite stays as it
is. -/
def divide (f : Format) (a b : Nat) : Nat :=
  match f.unpack a, f.unpack b with
  | .finite _ m p, .finite _ n q => f.encodeQuotient m n (p - q)
  | _, _ => a

/-- The encoding of an unpacked number in another format. -/
def pack (f : Format) : Unpacked → Nat
  | .notANumber => f.infinityBits + Nat.pow 2 (f.precision - 2)
  | .infinite negative =>
      (if negative then Nat.pow 2 (f.precision - 1 + f.exponentBits) else 0) + f.infinityBits
  | .finite negative m q => f.encode negative m q

end Format

/-- The exact value of a 64-bit number. -/
def unpack (x : Float) : Unpacked := Format.double.unpack x.toBits.toNat

/-- The exact value of a 32-bit number. -/
def unpackSingle (x : Float32) : Unpacked := Format.single.unpack x.toBits.toNat

/-- The 32-bit number nearest to a 64-bit one. -/
def narrow (x : Float) : Float32 :=
  Float32.ofBits (UInt32.ofNat (Format.single.pack (unpack x)))

/-- The 64-bit number equal to a 32-bit one. -/
def widen (x : Float32) : Float :=
  Float.ofBits (UInt64.ofNat (Format.double.pack (unpackSingle x)))

/-- The 32-bit number nearest to an integer, in one rounding. -/
def singleOfInt (n : Int) : Float32 :=
  Float32.ofBits (UInt32.ofNat (Format.single.encode (n < 0) n.natAbs 0))

/-- The 64-bit number nearest to an integer. -/
def doubleOfInt (n : Int) : Float :=
  Float.ofBits (UInt64.ofNat (Format.double.encode (n < 0) n.natAbs 0))

/-- The integer between zero and a finite number that is nearest to that number. -/
def wholePart? (x : Float) : Option Int :=
  match unpack x with
  | .finite negative m q =>
      let magnitude := if 0 ≤ q then m * Nat.pow 2 q.toNat else m / Nat.pow 2 (-q).toNat
      some (if negative then -(magnitude : Int) else magnitude)
  | _ => none

/-- The whole part brought into `[low, high]`. What is no number counts as zero, and an infinity as
the end of the interval on its side. -/
def wholePartWithin (low high : Int) (x : Float) : Int :=
  match unpack x, wholePart? x with
  | .infinite negative, _ => if negative then low else high
  | _, some n => max low (min high n)
  | _, none => 0

end Playtest.Number
