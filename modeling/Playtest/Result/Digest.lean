/-!
# A digest of bytes

SHA3-256: bytes are absorbed in blocks of 136 into a state of 25 words, which is stirred after each
block; 32 bytes of the state are the digest.
-/

namespace Playtest.Digest

/-- The state: 25 words, the word in column `x` and row `y` at `x + 5 * y`. -/
abbrev State := Array UInt64

/-- A word of the state. -/
def word (s : State) (x y : Nat) : UInt64 := s.getD (x % 5 + 5 * (y % 5)) 0

/-- A state from the word at each place. -/
def build (f : Nat → Nat → UInt64) : State :=
  (Array.range 25).map fun i => f (i % 5) (i / 5)

/-- A word turned to the left. -/
def rotate (w : UInt64) (n : Nat) : UInt64 :=
  if n % 64 = 0 then w else (w <<< UInt64.ofNat (n % 64)) ||| (w >>> UInt64.ofNat (64 - n % 64))

/-- By how much the word at each place is turned. -/
def turns : Array Nat :=
  #[0, 1, 62, 28, 27, 36, 44, 6, 55, 20, 3, 10, 43, 25, 39, 41, 45, 15, 21, 8, 18, 2, 61, 56, 14]

/-- What is added to the first word in each round. -/
def roundWords : List UInt64 :=
  [0x0000000000000001, 0x0000000000008082, 0x800000000000808A, 0x8000000080008000,
   0x000000000000808B, 0x0000000080000001, 0x8000000080008081, 0x8000000000008009,
   0x000000000000008A, 0x0000000000000088, 0x0000000080008009, 0x000000008000000A,
   0x000000008000808B, 0x800000000000008B, 0x8000000000008089, 0x8000000000008003,
   0x8000000000008002, 0x8000000000000080, 0x000000000000800A, 0x800000008000000A,
   0x8000000080008081, 0x8000000000008080, 0x0000000080000001, 0x8000000080008008]

/-- Mixes each column with its neighbours. -/
def mixColumns (s : State) : State :=
  let column := (Array.range 5).map fun x =>
    word s x 0 ^^^ word s x 1 ^^^ word s x 2 ^^^ word s x 3 ^^^ word s x 4
  build fun x y =>
    word s x y ^^^ column.getD ((x + 4) % 5) 0 ^^^ rotate (column.getD ((x + 1) % 5) 0) 1

/-- Turns each word and moves it: the word that arrives at `(x, y)` was at `(x + 3 y, x)`. -/
def turnAndMove (s : State) : State :=
  build fun x y =>
    let column := (x + 3 * y) % 5
    rotate (word s column x) (turns.getD (column + 5 * x) 0)

/-- Combines each word with the two after it in its row. -/
def combineRows (s : State) : State :=
  build fun x y => word s x y ^^^ ((~~~ word s (x + 1) y) &&& word s (x + 2) y)

/-- One round. -/
def stirOnce (s : State) (roundWord : UInt64) : State :=
  (combineRows (turnAndMove (mixColumns s))).modify 0 (· ^^^ roundWord)

/-- All rounds. -/
def stir (s : State) : State := roundWords.foldl stirOnce s

/-- How many bytes are absorbed at once. -/
def blockSize : Nat := 136

/-- Eight bytes as a word, the first byte lowest. -/
def wordOfBytes (bytes : List UInt8) : UInt64 :=
  bytes.foldr (fun b w => (w <<< 8) ||| b.toUInt64) 0

/-- A word as eight bytes, the lowest first. -/
def bytesOfWord (w : UInt64) : List UInt8 :=
  (List.range 8).map fun i => (w >>> UInt64.ofNat (8 * i)).toUInt8

/-- Absorbs one block. -/
def absorb (s : State) (block : List UInt8) : State :=
  stir (build fun x y =>
    let i := x + 5 * y
    word s x y ^^^ wordOfBytes ((block.drop (8 * i)).take 8))

/-- The bytes filled up to whole blocks: a mark, zeros, and the top bit of the last byte. -/
def fill (bytes : List UInt8) : List UInt8 :=
  let gap := blockSize - bytes.length % blockSize
  if gap = 1 then bytes ++ [0x86]
  else bytes ++ 0x06 :: List.replicate (gap - 2) 0 ++ [0x80]

/-- Absorbs blocks, at most `fuel` of them. -/
def absorbAll : (fuel : Nat) → State → List UInt8 → State
  | 0, s, _ => s
  | fuel + 1, s, bytes =>
      if bytes.isEmpty then s
      else absorbAll fuel (absorb s (bytes.take blockSize)) (bytes.drop blockSize)

/-- The **digest** of bytes. -/
def ofBytes (bytes : List UInt8) : List UInt8 :=
  let filled := fill bytes
  let s := absorbAll (filled.length / blockSize) (Array.replicate 25 0) filled
  ((List.range 4).flatMap fun x => bytesOfWord (word s x 0))

/-- A byte as two hexadecimal digits. -/
def hexByte (b : UInt8) : List Char :=
  let digit (n : Nat) : Char := if n < 10 then Char.ofNat (48 + n) else Char.ofNat (87 + n)
  [digit (b.toNat / 16), digit (b.toNat % 16)]

/-- Bytes in hexadecimal. -/
def hex (bytes : List UInt8) : String := String.ofList (bytes.flatMap hexByte)

end Playtest.Digest
