import Playtest.Text.Hidden

/-!
# Quoted text

Messages that show a piece of text from a document put it between quotes and escape in it what could
be misread: quotes and backslashes, the usual control characters by their letter, and every other
character that has no visible shape of its own by its code, as in `\u{200b}`.
-/

namespace Playtest.Text

/-- The letter that stands behind a backslash for a character. -/
def escapeLetter? (c : Char) : Option Char :=
  if c = '\x00' then some '0'
  else if c = '\t' then some 't'
  else if c = '\r' then some 'r'
  else if c = '\n' then some 'n'
  else if c = '\x22' then some '\x22'
  else if c = '\\' then some '\\'
  else none

/-- How one character is written between quotes. -/
def escapeChar (c : Char) : List Char :=
  match escapeLetter? c with
  | some letter => ['\\', letter]
  | none =>
      if isHidden c then ['\\', 'u', '\x7b'] ++ Nat.toDigits 16 c.toNat ++ ['\x7d'] else [c]

/-- A text between quotes. -/
def quoted (s : String) : String :=
  String.ofList ('\x22' :: s.toList.flatMap escapeChar ++ ['\x22'])

end Playtest.Text
