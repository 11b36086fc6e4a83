import Playtest.Number.Notation

/-!
# The notation of settings

A file of settings holds lines `key = value`. Values are numbers, texts in quotes, and lists of
texts in brackets, which may go over several lines; a comment goes from `#` to the end of its line.
Settings are flat: tables, dates and truth values are notations of a larger language that no setting
could have, and are no settings here.

* `settingsOf?` reads all settings of a text.
-/

namespace Playtest.Config

/-- The value of a setting. -/
inductive Setting where
  | number (x : Float)
  | text (s : String)
  | texts (ss : List String)

/-- What is read, with what follows it. -/
abbrev Read (α : Type) := Option (α × List Char)

/-! ### Blanks, comments and lines -/

/-- Whether a character is a blank within a line. -/
def isSpace (c : Char) : Bool := c == ' ' || c == '\t'

/-- Whether a character may stand in comments and in quotes on one line. -/
def isPrintable (c : Char) : Bool := c == '\t' || (0x20 ≤ c.toNat && c.toNat != 0x7F)

/-- What follows the blanks. -/
def skipSpace (cs : List Char) : List Char := cs.dropWhile isSpace

/-- What follows the blanks and a comment. -/
def skipComment (cs : List Char) : List Char :=
  match skipSpace cs with
  | '#' :: rest => rest.dropWhile isPrintable
  | rest => rest

/-- What follows a line break. -/
def newline? : List Char → Option (List Char)
  | '\n' :: rest => some rest
  | '\r' :: '\n' :: rest => some rest
  | _ => none

/-- What follows blanks, comments and line breaks, up to as many as `fuel`. -/
def skipLines : (fuel : Nat) → List Char → List Char
  | 0, cs => cs
  | fuel + 1, cs =>
      let rest := skipComment cs
      match newline? rest with
      | some below => skipLines fuel below
      | none => rest

/-- What follows blanks, comments and line breaks. -/
def skipAll (cs : List Char) : List Char := skipLines cs.length cs

/-! ### Texts -/

/-- The value of a hexadecimal digit. -/
def hexDigit? (c : Char) : Option Nat :=
  if c.isDigit then some (c.toNat - 48)
  else if 'a' ≤ c ∧ c ≤ 'f' then some (c.toNat - 87)
  else if 'A' ≤ c ∧ c ≤ 'F' then some (c.toNat - 55)
  else none

/-- The character with a code in hexadecimal digits. -/
def charOf? (digits : List Char) : Option Char := do
  let values ← digits.mapM hexDigit?
  let code := values.foldl (fun n d => n * 16 + d) 0
  if h : code.isValidChar then some (Char.ofNatAux code h) else none

/-- The character that an escape means, and what follows it. -/
def escape? : List Char → Read Char
  | 'b' :: rest => some ('\x08', rest)
  | 't' :: rest => some ('\t', rest)
  | 'n' :: rest => some ('\n', rest)
  | 'f' :: rest => some ('\x0c', rest)
  | 'r' :: rest => some ('\r', rest)
  | '\x22' :: rest => some ('\x22', rest)
  | '\\' :: rest => some ('\\', rest)
  | 'u' :: rest =>
      if (rest.take 4).length = 4 then (charOf? (rest.take 4)).map fun c =>
        (c, rest.drop 4) else none
  | 'U' :: rest =>
      if (rest.take 8).length = 8 then (charOf? (rest.take 8)).map fun c =>
        (c, rest.drop 8) else none
  | _ => none

/-- A character in front of a text. -/
def Read.cons (c : Char) (r : Read (List Char)) : Read (List Char) :=
  r.map fun (cs, rest) => (c :: cs, rest)

/-- A text in double quotes, from behind the first of them. -/
def quotedText : (fuel : Nat) → List Char → Read (List Char)
  | 0, _ | _, [] => none
  | fuel + 1, c :: rest =>
      if c = '\x22' then some ([], rest)
      else if c = '\\' then
        match escape? rest with
        | some (d, rest) => (quotedText fuel rest).cons d
        | none => none
      else if isPrintable c then (quotedText fuel rest).cons c
      else none

/-- A text in single quotes, from behind the first of them. -/
def literalText : List Char → Read (List Char)
  | [] => none
  | c :: rest =>
      if c = '\x27' then some ([], rest)
      else if isPrintable c then (literalText rest).cons c
      else none

/-- What follows three quotes that end a text, and the one or two quotes that the text itself ends
in. -/
def closing? (quote : Char) (cs : List Char) : Read (List Char) :=
  let quotes := (cs.take 5).takeWhile (· == quote)
  if 3 ≤ quotes.length then some (quotes.drop 3, cs.drop quotes.length) else none

/-- Drops blanks and ends of lines in front. A carriage return alone ends no line. -/
def skipBreaks : List Char → List Char
  | '\r' :: '\n' :: rest => skipBreaks rest
  | c :: rest => if isSpace c || c == '\n' then skipBreaks rest else c :: rest
  | [] => []

/-- What follows a backslash at the end of a line: the text goes on with the next character that is
no blank. -/
def continuation? (cs : List Char) : Option (List Char) :=
  (newline? (skipSpace cs)).map skipBreaks

/-- A text in three double quotes, from behind the first of them. -/
def quotedLines : (fuel : Nat) → List Char → Read (List Char)
  | 0, _ | _, [] => none
  | fuel + 1, c :: rest =>
      match closing? '\x22' (c :: rest) with
      | some closed => some closed
      | none =>
          if c = '\\' then
            match continuation? rest, escape? rest with
            | some rest, _ => quotedLines fuel rest
            | none, some (d, rest) => (quotedLines fuel rest).cons d
            | none, none => none
          else
            match newline? (c :: rest) with
            | some below => (quotedLines fuel below).cons '\n'
            | none => if isPrintable c then (quotedLines fuel rest).cons c else none

/-- A text in three single quotes, from behind the first of them. -/
def literalLines : (fuel : Nat) → List Char → Read (List Char)
  | 0, _ | _, [] => none
  | fuel + 1, c :: rest =>
      match closing? '\x27' (c :: rest) with
      | some closed => some closed
      | none =>
          match newline? (c :: rest) with
          | some below => (literalLines fuel below).cons '\n'
          | none => if isPrintable c then (literalLines fuel rest).cons c else none

/-- What follows the line break that a text of several lines may begin with. -/
def skipFirstBreak (cs : List Char) : List Char := (newline? cs).getD cs

/-- A text of one line in quotes. -/
def line? : List Char → Read (List Char)
  | '\x22' :: rest => quotedText (rest.length + 1) rest
  | '\x27' :: rest => literalText rest
  | _ => none

/-- A text in quotes. -/
def text? : List Char → Read (List Char)
  | '\x22' :: '\x22' :: '\x22' :: rest => quotedLines (rest.length + 1) (skipFirstBreak rest)
  | '\x27' :: '\x27' :: '\x27' :: rest => literalLines (rest.length + 1) (skipFirstBreak rest)
  | cs => line? cs

/-- The texts of a list, from behind its bracket or a comma in it. -/
def textsFrom : (fuel : Nat) → List Char → Read (List String)
  | 0, _ => none
  | fuel + 1, cs =>
      match skipAll cs with
      | ']' :: rest => some ([], rest)
      | cs =>
          match text? cs with
          | none => none
          | some (t, rest) =>
              match skipAll rest with
              | ']' :: rest => some ([String.ofList t], rest)
              | ',' :: rest =>
                  (textsFrom fuel rest).map fun (ts, rest) => (String.ofList t :: ts, rest)
              | _ => none

/-! ### Numbers -/

/-- Digits without the underscores between them. -/
def plainDigits? (isDigit : Char → Bool) : List Char → Option (List Char)
  | [] => none
  | [c] => if isDigit c then some [c] else none
  | c :: '_' :: rest => if isDigit c then (plainDigits? isDigit rest).map (c :: ·) else none
  | c :: rest => if isDigit c then (plainDigits? isDigit rest).map (c :: ·) else none

/-- Digits of a whole number, which do not begin with a zero. -/
def wholeDigits? (cs : List Char) : Option (List Char) :=
  match plainDigits? Char.isDigit cs with
  | some ('0' :: _ :: _) | none => none
  | some digits => some digits

/-- A whole number within 64 bits. -/
def wholeNumber? (negative : Bool) (n : Nat) : Option Float :=
  let i : Int := if negative then -(n : Int) else n
  if Int64.minValue.toInt ≤ i ∧ i ≤ Int64.maxValue.toInt then some (Number.doubleOfInt i) else none

/-- A whole number in a base, from behind its mark. -/
def baseNumber? (base : Nat) (cs : List Char) : Option Float := do
  let digits ← plainDigits? (fun c => (hexDigit? c).any (· < base)) cs
  wholeNumber? false (Number.valueOf base digits)

/-- A decimal number without its sign. -/
def decimal? (negative : Bool) (cs : List Char) : Option Float := do
  let (mantissa, exponent) := Number.cutExponent cs
  let (whole, part) := Number.cutPoint mantissa
  let whole ← wholeDigits? whole
  let digits ← part.elim (some []) (plainDigits? Char.isDigit)
  let (down, exponent) := Number.signOf (exponent.getD ['0'])
  let exponent ← plainDigits? Char.isDigit exponent
  if cs.all fun c => c.isDigit || c == '_' then wholeNumber? negative (Number.valueOf 10 whole)
  else
    let scale : Int := Number.valueOf 10 exponent
    let x := Number.floatOf negative whole digits (if down then -scale else scale)
    if x == 1.0 / 0.0 then none else some x

/-- A number. -/
def number? (cs : List Char) : Option Float :=
  match cs with
  | '0' :: 'x' :: digits => baseNumber? 16 digits
  | '0' :: 'o' :: digits => baseNumber? 8 digits
  | '0' :: 'b' :: digits => baseNumber? 2 digits
  | _ =>
      let (negative, cs) := Number.signOf cs
      match String.ofList cs with
      | "inf" => some (Number.signed negative (1.0 / 0.0))
      | "nan" => some (0.0 / 0.0)
      | _ => decimal? negative cs

/-- Whether a character may be a part of a number. -/
def isNumeric (c : Char) : Bool := c.isAlphanum || c == '+' || c == '-' || c == '.' || c == '_'

/-! ### Settings -/

/-- A value. -/
def setting? (cs : List Char) : Read Setting :=
  match cs with
  | '[' :: rest => (textsFrom (rest.length + 1) rest).map fun (ts, rest) => (.texts ts, rest)
  | '\x22' :: _ | '\x27' :: _ =>
      (text? cs).map fun (t, rest) => (.text (String.ofList t), rest)
  | _ => (number? (cs.takeWhile isNumeric)).map fun x => (.number x, cs.dropWhile isNumeric)

/-- Whether a character may be a part of a key without quotes. -/
def isKeyChar (c : Char) : Bool := c.isAlphanum || c == '-' || c == '_'

/-- A key. -/
def key? (cs : List Char) : Read String :=
  match cs.takeWhile isKeyChar with
  | [] => (line? cs).map fun (k, rest) => (String.ofList k, rest)
  | k => some (String.ofList k, cs.dropWhile isKeyChar)

/-- What follows the end of a line. -/
def lineEnd? (cs : List Char) : Option (List Char) :=
  match skipComment cs with
  | [] => some []
  | rest => newline? rest

/-- A setting, and what follows its line. -/
def entry? (cs : List Char) : Read (String × Setting) :=
  match key? cs with
  | none => none
  | some (key, rest) =>
      match skipSpace rest with
      | '=' :: rest =>
          match setting? (skipSpace rest) with
          | none => none
          | some (value, rest) => (lineEnd? rest).map fun below => ((key, value), below)
      | _ => none

/-- Settings from a line on. -/
def entriesFrom : (fuel : Nat) → List Char → Option (List (String × Setting))
  | 0, _ => none
  | fuel + 1, cs =>
      match skipAll cs with
      | [] => some []
      | cs =>
          match entry? cs with
          | none => none
          | some (e, below) => (entriesFrom fuel below).map (e :: ·)

/-- **All settings of a text.** A byte order mark in front of them is no part of them. -/
def settingsOf? (text : String) : Option (List (String × Setting)) :=
  let cs := match text.toList with
    | '\uFEFF' :: rest => rest
    | cs => cs
  entriesFrom (cs.length + 1) cs

end Playtest.Config
