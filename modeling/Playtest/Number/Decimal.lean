import Playtest.Number.Binary

/-!
# The decimal text of a floating number

A float is written with the fewest digits that read back to it; of two such decimals the nearer one
is taken. `shortest` selects the digits by comparing exact integers, `Layout` decides how they are
laid out, and each text that the library writes is one `Layout` value:

* `Layout.json`: numbers in documents and stored results,
* `Layout.plain`: numbers inside messages.

`fixed` writes a set number of decimal places of the exact value instead.
-/

namespace Playtest.Number

/-- The number `digits * 10 ^ exponent`. -/
structure Decimal where
  digits : Nat
  exponent : Int
  deriving Repr, DecidableEq

namespace Decimal

/-- Takes zeros off the end of the digits, at most `fuel` of them. -/
def stripZeros : Nat → Decimal → Decimal
  | 0, d => d
  | fuel + 1, d =>
      if d.digits ≠ 0 ∧ d.digits % 10 = 0 then stripZeros fuel ⟨d.digits / 10, d.exponent + 1⟩
        else d

end Decimal

/-- How many decimal digits a number has. -/
def digitCount (n : Nat) : Nat := (Nat.toDigits 10 n).length

/-- Which of two equally near decimals is written. -/
inductive Tie where
  | toEven
  | up
  deriving Repr, DecidableEq

/-- The numbers that read back to a given float, all multiplied by one power of ten so that they are
integers: an interval around `value`, its ends included when `closed`. -/
structure Rounding where
  low : Nat
  value : Nat
  high : Nat
  closed : Bool
  exponent : Int

namespace Rounding

/-- The interval of `significand * 2 ^ exponent` in a format. It reaches half way to each neighbour;
just above a power of two the neighbour below is only half as far away. -/
def of (f : Format) (significand : Nat) (exponent : Int) : Rounding :=
  let narrowBelow := significand == Nat.pow 2 (f.precision - 1) && f.leastExponent < exponent
  let quarter := exponent - 2
  let unit := if 0 ≤ quarter then Nat.pow 2 quarter.toNat else Nat.pow 5 (-quarter).toNat
  { low := (if narrowBelow then 4 * significand - 1 else 4 * significand - 2) * unit
    value := 4 * significand * unit
    high := (4 * significand + 2) * unit
    closed := significand % 2 == 0
    exponent := if 0 ≤ quarter then 0 else quarter }

/-- Whether a decimal, scaled like the interval, reads back to the float. -/
def contains (r : Rounding) (n : Nat) : Bool :=
  if r.closed then r.low ≤ n && n ≤ r.high else r.low < n && n < r.high

/-- The decimal on the grid of width `step` that reads back and is nearest, if there is one. -/
def onGrid? (r : Rounding) (tie : Tie) (step : Nat) : Option Nat :=
  let below := r.value / step
  let lower := below * step
  let upper := (below + 1) * step
  match r.contains lower, r.contains upper with
  | true, false => some lower
  | false, true => some upper
  | false, false => none
  | true, true =>
      match compare (2 * r.value) (lower + upper) with
      | .lt => some lower
      | .gt => some upper
      | .eq =>
          match tie with
          | .up => some upper
          | .toEven => some (if below % 2 == 0 then lower else upper)

/-- The first grid with a decimal that reads back, from the coarsest (one digit) to the finest
(all digits of the exact value, which always reads back). -/
def select (r : Rounding) (tie : Tie) : (places : Nat) → Nat
  | 0 => r.value
  | places + 1 =>
      match r.onGrid? tie (Nat.pow 10 places) with
      | some n => n
      | none => select r tie places

end Rounding

/-- The **fewest digits that read back** to `significand * 2 ^ exponent`. -/
def shortest (f : Format) (tie : Tie) (significand : Nat) (exponent : Int) : Decimal :=
  if significand == 0 then ⟨0, 0⟩
  else
    let r := Rounding.of f significand exponent
    let n := r.select tie (digitCount r.value)
    Decimal.stripZeros (digitCount n) ⟨n, r.exponent⟩

/-- How selected digits are laid out. Numbers whose leading digit has an exponent from `plainFrom`
up to `plainTo` are written positionally; without these bounds all are. -/
structure Layout where
  plain : Option (Int × Int)
  pointZero : Bool
  tie : Tie

/-- Zeros, as text. -/
def zeros (n : Nat) : List Char := List.replicate n '0'

/-- A decimal written positionally. -/
def Decimal.positional (d : Decimal) (pointZero : Bool) : List Char :=
  let ds := Nat.toDigits 10 d.digits
  if 0 ≤ d.exponent then
    ds ++ zeros d.exponent.toNat ++ (if pointZero then ['.', '0'] else [])
  else
    let places := (-d.exponent).toNat
    if places < ds.length then
      ds.take (ds.length - places) ++ '.' :: ds.drop (ds.length - places)
    else ['0', '.'] ++ zeros (places - ds.length) ++ ds

/-- A decimal written as one digit, a fraction and a signed power of ten. -/
def Decimal.scientific (d : Decimal) : List Char :=
  let ds := Nat.toDigits 10 d.digits
  let lead : Int := d.exponent + ds.length - 1
  let mantissa :=
    match ds with
    | first :: second :: rest => first :: '.' :: second :: rest
    | short => short
  mantissa ++ 'e' :: (if lead < 0 then '-' else '+') :: Nat.toDigits 10 lead.natAbs

/-- Lays out a finite magnitude. -/
def Layout.magnitude (l : Layout) (f : Format) (significand : Nat) (exponent : Int) : List Char :=
  let d := shortest f l.tie significand exponent
  let lead : Int := d.exponent + (digitCount d.digits : Int) - 1
  match l.plain with
  | none => d.positional l.pointZero
  | some (low, high) =>
      if low ≤ lead ∧ lead ≤ high then d.positional l.pointZero else d.scientific

/-- The text of a number in a layout. -/
def Layout.render (l : Layout) (f : Format) : Unpacked → String
  | .notANumber => "NaN"
  | .infinite negative => if negative then "-inf" else "inf"
  | .finite negative m q =>
      String.ofList ((if negative then ['-'] else []) ++ l.magnitude f m q)

/-- **Numbers in documents**: positional from `10^-5` up to below `10^16`, with `.0` kept. -/
def Layout.json : Layout := ⟨some (-5, 15), true, .toEven⟩

/-- Short numbers in documents have a smaller positional range above and a larger one below. -/
def Layout.jsonSingle : Layout := ⟨some (-6, 12), true, .toEven⟩

/-- **Numbers in messages**: always positional, whole numbers without a point. -/
def Layout.plainText : Layout := ⟨none, false, .up⟩

/-- A 64-bit number as it stands in messages. -/
def display (x : Float) : String := Layout.plainText.render .double (unpack x)

/-- A 32-bit number as it stands in messages. -/
def displaySingle (x : Float32) : String := Layout.plainText.render .single (unpackSingle x)

/-- A quotient rounded to the nearest integer, ties to even. -/
def divEven (n d : Nat) : Nat :=
  if 2 * (n % d) < d then n / d
  else if d < 2 * (n % d) then n / d + 1
  else n / d + n / d % 2

/-- The exact value rounded to `places` decimal places, a tie going to the even neighbour. The sign
is kept even where only zeros remain. -/
def fixed (places : Nat) (x : Float) : String :=
  match unpack x with
  | .notANumber => "NaN"
  | .infinite negative => if negative then "-inf" else "inf"
  | .finite negative m q =>
      let scaled := m * Nat.pow 10 places
      let n := if 0 ≤ q then scaled * Nat.pow 2 q.toNat else divEven scaled (Nat.pow 2 (-q).toNat)
      let ds := Nat.toDigits 10 n
      let ds := zeros (places + 1 - ds.length) ++ ds
      let whole := ds.take (ds.length - places)
      let part := ds.drop (ds.length - places)
      String.ofList ((if negative then ['-'] else []) ++ whole
        ++ (if places = 0 then [] else '.' :: part))

/-- The 64-bit number nearest to `digits * 10 ^ exponent`, or nothing beyond the largest finite
number. Exponents so far out that the digits cannot matter are settled without a power of ten. -/
def ofDecimal? (digits : Nat) (exponent : Int) : Option Float :=
  let lead : Int := exponent + (digitCount digits : Int)
  if digits = 0 ∨ lead < -330 then some 0.0
  else if 310 < lead then none
  else
    let bits :=
      if 0 ≤ exponent then Format.double.encodeMagnitude (digits * Nat.pow 10 exponent.toNat) 0
      else Format.double.encodeQuotient digits (Nat.pow 10 (-exponent).toNat) 0
    if bits < Format.double.infinityBits then some (Float.ofBits (UInt64.ofNat bits)) else none

/-- The encoding of the number nearest to a power of ten. -/
def powerOfTen (k : Nat) : Nat := Format.double.encodeMagnitude (Nat.pow 10 k) 0

/-- The largest power of ten that is finite. -/
def greatestPower : Nat := 308

/-- A magnitude multiplied or divided by a power of ten, each step rounded on its own: far below one
the largest power is taken out first, as often as needed. Beyond the largest finite number there is
nothing. -/
def scale? (bits : Nat) (exponent : Int) : Option Nat :=
  if exponent.natAbs ≤ greatestPower then
    let power := powerOfTen exponent.natAbs
    if exponent < 0 then some (Format.double.divide bits power)
    else
      let product := Format.double.multiply bits power
      if product < Format.double.infinityBits then some product else none
  else if bits = 0 then some 0
  else if _h : 0 ≤ exponent then none
  else
    scale? (Format.double.divide bits (powerOfTen greatestPower)) (exponent + greatestPower)
termination_by exponent.natAbs
decreasing_by simp only [greatestPower] at *; omega

/-- **A quick reading** of `significand * 10 ^ exponent`: the number nearest to the significand,
scaled. It can be a place off the nearest number to the whole. -/
def ofScaled? (significand : Nat) (exponent : Int) : Option Float :=
  (scale? (Format.double.encodeMagnitude significand 0) exponent).map fun bits =>
    Float.ofBits (UInt64.ofNat bits)

end Playtest.Number
