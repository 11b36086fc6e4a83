import Playtest.Json.Node

/-!
# Reading a text

`Node.ofText` takes a text to the node at its start and says what follows that node. It never fails:
a fault stands at its place in the node.

The functions take the characters that are left and return what they read with what is left then.
Those that go into containers also take a bound on the number of steps. Twice the length of the text
is always enough, because every value and every comma takes at least one character.
-/

namespace Playtest.Json

/-- The white space of JSON. -/
def isSpace (c : Char) : Bool := c == ' ' || c == '\n' || c == '\t' || c == '\r'

/-- Drops white space in front. -/
def skipSpace (cs : List Char) : List Char := cs.dropWhile isSpace

/-- The value of a hexadecimal digit. -/
def hexValue? (c : Char) : Option Nat :=
  if '0' ≤ c ∧ c ≤ '9' then some (c.toNat - 48)
  else if 'a' ≤ c ∧ c ≤ 'f' then some (c.toNat - 87)
  else if 'A' ≤ c ∧ c ≤ 'F' then some (c.toNat - 55)
  else none

/-- The value of four hexadecimal digits. -/
def hexValue4? (a b c d : Char) : Option Nat := do
  let w ← hexValue? a
  let x ← hexValue? b
  let y ← hexValue? c
  let z ← hexValue? d
  return ((w * 16 + x) * 16 + y) * 16 + z

/-- The character that a letter behind a backslash stands for. -/
def unescape? (c : Char) : Option Char :=
  if c = '\x22' then some '\x22'
  else if c = '\\' then some '\\'
  else if c = '/' then some '/'
  else if c = 'b' then some '\x08'
  else if c = 'f' then some '\x0c'
  else if c = 'n' then some '\n'
  else if c = 'r' then some '\r'
  else if c = 't' then some '\t'
  else none

/-- The first half of a surrogate pair. -/
def isLeading (n : Nat) : Bool := 0xD800 ≤ n && n ≤ 0xDBFF

/-- The second half of a surrogate pair. -/
def isTrailing (n : Nat) : Bool := 0xDC00 ≤ n && n ≤ 0xDFFF

/-- What has been read of a string: its characters in reverse, a first half of a pair that waits for
its second, or the flaw that makes the string stand for nothing. -/
inductive Partial where
  | fine (reversed : List Char)
  | waiting (leading : Nat) (reversed : List Char)
  | spoilt (fault : Fault)

/-- A character follows. -/
def Partial.push : Partial → Char → Partial
  | .fine cs, c => .fine (c :: cs)
  | .waiting _ _, _ => .spoilt .unfinishedSurrogate
  | .spoilt fault, _ => .spoilt fault

/-- A `\u` escape follows. -/
def Partial.pushCode : Partial → Nat → Partial
  | .fine cs, n =>
      if isTrailing n then .spoilt .loneSurrogate
      else if isLeading n then .waiting n cs
      else .fine (Char.ofNat n :: cs)
  | .waiting leading cs, n =>
      if isTrailing n then
        .fine (Char.ofNat (0x10000 + (leading - 0xD800) * 0x400 + (n - 0xDC00)) :: cs)
      else .spoilt .loneSurrogate
  | .spoilt fault, _ => .spoilt fault

/-- The string ends. -/
def Partial.finish : Partial → Except Fault String
  | .fine cs => .ok (String.ofList cs.reverse)
  | .waiting _ _ => .error .unfinishedSurrogate
  | .spoilt fault => .error fault

/-- The flaw of a string that also ends its text: the flaw that is there already, or else the fault
that ends the text. -/
def Partial.flawOr : Partial → Fault → Fault
  | .spoilt flaw, _ => flaw
  | _, fault => fault

/-- A string token: complete, with its text or its flaw, or broken off. -/
inductive StringToken where
  | complete (text : Except Fault String) (rest : List Char)
  | broken (ending : Ending)

/-- The fault of a `\u` that four hexadecimal digits do not follow. Four bytes are looked at,
whatever the characters. -/
def hexFault (cs : List Char) : Fault :=
  if 4 ≤ (String.ofList cs).utf8ByteSize then .invalidEscape else .endInString

/-- Reads a string whose opening quote has been taken. Who reads it meets the first flaw; who skips
it looks for the end and for escapes that are none. -/
def readString (acc : Partial) : List Char → StringToken
  | [] => .broken ⟨acc.flawOr .endInString, .endInString⟩
  | '\\' :: 'u' :: a :: b :: c :: d :: rest =>
      match hexValue4? a b c d with
      | some n => readString (acc.pushCode n) rest
      | none => .broken ⟨acc.flawOr .invalidEscape, .invalidEscape⟩
  | '\\' :: c :: rest =>
      match unescape? c with
      | some e => readString (acc.push e) rest
      | none =>
          if c = 'u' then .broken ⟨acc.flawOr (hexFault rest), hexFault rest⟩
          else .broken ⟨(acc.push c).flawOr .invalidEscape, .invalidEscape⟩
  | c :: rest =>
      if c = '\x22' then .complete acc.finish rest
      else if c = '\\' then .broken ⟨acc.flawOr .endInString, .endInString⟩
      else if c.toNat < 0x20 then
        .broken ⟨(acc.push c).flawOr .controlCharacter, .controlCharacter⟩
      else readString (acc.push c) rest

/-- Whether a character is a decimal digit. -/
def isDigit (c : Char) : Bool := '0' ≤ c && c ≤ '9'

/-- The number that digits stand for. -/
def digitsValue (cs : List Char) : Nat := cs.foldl (fun n c => n * 10 + (c.toNat - 48)) 0

/-- The digits in front, and what follows them. -/
def takeDigits (cs : List Char) : List Char × List Char := cs.span isDigit

/-- Adds digits to a significand as long as it stays below `2 ^ 64`, and gives the digits from the
first on that would take it further. -/
def addDigits (n : Nat) : List Char → Nat × List Char
  | [] => (n, [])
  | c :: cs =>
      let next := n * 10 + (c.toNat - 48)
      if next < UInt64.size then addDigits next cs else (n, c :: cs)

/-- The node of a float. -/
def realNode (negative : Bool) (significand : Nat) (exponent : Int) : Node :=
  match Number.ofScaled? significand exponent with
  | some x =>
      let y := if negative then -x else x
      if h : y.isFinite = true then .real ⟨y, h⟩ else .flawed .numberOutOfRange
  | none => .flawed .numberOutOfRange

/-- The node of a number without fraction and exponent. It is an integer if it fits, and a float
otherwise; `-0` is the float. -/
def integerNode (negative : Bool) (n : Nat) : Node :=
  if negative && n == 0 then realNode true 0 0
  else
    match Integer.ofInt? (if negative then -(n : Int) else n) with
    | some i => .int i
    | none => realNode negative n 0

/-- A number that breaks off where a digit has to stand. -/
def noDigit : List Char → Node × List Char
  | [] => (.broken .other ⟨.endInValue, .invalidNumber⟩, [])
  | rest => (.broken .other (.both .invalidNumber), rest)

/-- Reads the exponent of a number behind its `e`. -/
def readExponent (negative : Bool) (significand : Nat) (exponent : Int) (cs : List Char) :
    Node × List Char :=
  let (down, cs) :=
    match cs with
    | '+' :: rest => (false, rest)
    | '-' :: rest => (true, rest)
    | _ => (false, cs)
  match takeDigits cs with
  | ([], rest) => noDigit rest
  | (ds, rest) =>
      let e : Int := digitsValue ds
      (realNode negative significand (if down then exponent - e else exponent + e), rest)

/-- Whether a character begins an exponent. -/
def isExponentMark (c : Char) : Bool := c == 'e' || c == 'E'

/-- Reads what follows the whole digits of a number. Whole digits that do not fit the significand
any more count as powers of ten, and such digits behind the point do not count. -/
def readFraction (negative : Bool) (whole : List Char) (cs : List Char) : Node × List Char :=
  let (significand, surplus) := addDigits 0 whole
  let exponent : Int := surplus.length
  match cs with
  | '.' :: cs =>
      match takeDigits cs with
      | ([], rest) => noDigit rest
      | (ds, rest) =>
          let (significand, unused) := addDigits significand ds
          let exponent := exponent - (ds.length - unused.length : Nat)
          match rest with
          | c :: more =>
              if isExponentMark c then readExponent negative significand exponent more
              else (realNode negative significand exponent, rest)
          | [] => (realNode negative significand exponent, [])
  | c :: more =>
      if isExponentMark c then readExponent negative significand exponent more
      else if surplus.isEmpty then (integerNode negative significand, cs)
      else (realNode negative significand exponent, cs)
  | [] =>
      if surplus.isEmpty then (integerNode negative significand, [])
      else (realNode negative significand exponent, [])

/-- Reads a number behind its sign. A number has no zero in front of other digits. -/
def readNumber (negative : Bool) (cs : List Char) : Node × List Char :=
  match takeDigits cs with
  | ([], rest) => noDigit rest
  | (['0'], rest) => readFraction negative ['0'] rest
  | ('0' :: more, rest) => (.broken .other (.both .invalidNumber), more ++ rest)
  | (ds, rest) => readFraction negative ds rest

/-- Reads the rest of a word. -/
def readWord (node : Node) (opening : Opening) : List Char → List Char → Node × List Char
  | [], cs => (node, cs)
  | _ :: _, [] => (.broken opening (.both .endInValue), [])
  | w :: ws, c :: cs =>
      if w = c then readWord node opening ws cs
      else (.broken opening (.both .expectedIdent), cs)

/-- How deep containers may be nested. -/
def depthLimit : Nat := 127

/-- The node of an array that stands inside `depth` containers. -/
def arrayNode (depth : Nat) (items : List Node) (unfinished : Option Ending) : Node :=
  if depth < depthLimit then .arr items unfinished else .deep true unfinished

/-- The node of an object that stands inside `depth` containers. -/
def objectNode (depth : Nat) (fields : List (Except Fault String × Node))
    (unfinished : Option Ending) : Node :=
  if depth < depthLimit then .obj fields unfinished else .deep false unfinished

/-- What has been read of a container, in order, how it broke off, and what is left. -/
structure Contents (α : Type) where
  parts : List α
  unfinished : Option Ending
  rest : List Char

mutual

/-- Reads one value inside `depth` containers. -/
def readValue : (fuel : Nat) → (depth : Nat) → List Char → Node × List Char
  | 0, _, cs => (.broken .nothing (.both .endInValue), cs)
  | fuel + 1, depth, cs =>
      match skipSpace cs with
      | [] => (.broken .nothing (.both .endInValue), [])
      | c :: rest =>
          if c = 'n' then readWord .null .null ['u', 'l', 'l'] rest
          else if c = 't' then readWord (.bool true) .other ['r', 'u', 'e'] rest
          else if c = 'f' then readWord (.bool false) .other ['a', 'l', 's', 'e'] rest
          else if c = '-' then readNumber true rest
          else if isDigit c then readNumber false (c :: rest)
          else if c = '\x22' then
            match readString (.fine []) rest with
            | .complete (.ok s) more => (.str s, more)
            | .complete (.error fault) more => (.flawed fault, more)
            | .broken ending => (.broken .text ending, [])
          else if c = '[' then
            match skipSpace rest with
            | ']' :: more => (arrayNode depth [] none, more)
            | [] => (arrayNode depth [] (some (.both .endInList)), [])
            | cs =>
                let contents := readItems fuel (depth + 1) cs
                (arrayNode depth contents.parts contents.unfinished, contents.rest)
          else if c = '\x7b' then
            match skipSpace rest with
            | [] => (objectNode depth [] (some (.both .endInObject)), [])
            | d :: more =>
                if d = '\x7d' then (objectNode depth [] none, more)
                else
                  let contents := readFields fuel (depth + 1) (d :: more)
                  (objectNode depth contents.parts contents.unfinished, contents.rest)
          else (.broken .other (.both .expectedValue), c :: rest)

/-- Reads items up to the end of their array; one item at least stands in front. -/
def readItems : (fuel : Nat) → (depth : Nat) → List Char → Contents Node
  | 0, _, cs => ⟨[], some (.both .endInList), cs⟩
  | fuel + 1, depth, cs =>
      let (node, rest) := readValue fuel depth cs
      match node.ending? with
      | some ending => ⟨[node], some ending, rest⟩
      | none =>
          match skipSpace rest with
          | [] => ⟨[node], some (.both .endInList), []⟩
          | ']' :: more => ⟨[node], none, more⟩
          | ',' :: more =>
              match skipSpace more with
              | [] => ⟨[node], some (.both .endInValue), []⟩
              | ']' :: left => ⟨[node], some ⟨.trailingComma, .expectedValue⟩, left⟩
              | cs =>
                  let contents := readItems fuel depth cs
                  { contents with parts := node :: contents.parts }
          | left => ⟨[node], some (.both .expectedListCommaOrEnd), left⟩

/-- Reads fields up to the end of their object; something that is not the end stands in front. -/
def readFields : (fuel : Nat) → (depth : Nat) → List Char →
    Contents (Except Fault String × Node)
  | 0, _, cs => ⟨[], some (.both .endInObject), cs⟩
  | fuel + 1, depth, '\x22' :: cs =>
      match readString (.fine []) cs with
      | .broken ending => ⟨[(.error ending.read, .broken .nothing ending)], some ending, []⟩
      | .complete key rest =>
          match skipSpace rest with
          | [] => ⟨[(key, .broken .nothing (.both .endInObject))], some (.both .endInObject), []⟩
          | ':' :: more =>
              let (node, rest) := readValue fuel depth more
              match node.ending? with
              | some ending => ⟨[(key, node)], some ending, rest⟩
              | none =>
                  match skipSpace rest with
                  | [] => ⟨[(key, node)], some (.both .endInObject), []⟩
                  | ',' :: more =>
                      match skipSpace more with
                      | [] => ⟨[(key, node)], some ⟨.endInValue, .endInObject⟩, []⟩
                      | d :: left =>
                          if d = '\x7d' then
                            ⟨[(key, node)], some ⟨.trailingComma, .keyMustBeString⟩, left⟩
                          else
                            let contents := readFields fuel depth (d :: left)
                            { contents with parts := (key, node) :: contents.parts }
                  | d :: left =>
                      if d = '\x7d' then ⟨[(key, node)], none, left⟩
                      else ⟨[(key, node)], some (.both .expectedObjectCommaOrEnd), d :: left⟩
          | left =>
              ⟨[(key, .broken .nothing (.both .expectedColon))], some (.both .expectedColon), left⟩
  | _ + 1, _, cs => ⟨[], some (.both .keyMustBeString), cs⟩

end

/-- The node at the start of a text, and the fault of what follows it: a text has nothing but white
space behind its value. -/
def Node.ofText (text : String) : Node × Option Fault :=
  let cs := text.toList
  let (node, rest) := readValue (2 * cs.length + 1) 0 cs
  (node, if (skipSpace rest).isEmpty then none else some .trailingCharacters)

end Playtest.Json
