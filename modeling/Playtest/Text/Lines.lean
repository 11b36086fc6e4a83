import Playtest.Text.Blank

/-!
# Lines

* `lines` cuts a text at its line breaks, and `fileLines` does so with a file,
* `records` are the lines of a file that has one thing on each line, with their numbers.
-/

namespace Playtest.Text

/-- The lines of a text. There is one more than there are line breaks. -/
def lines : List Char → List (List Char)
  | [] => [[]]
  | '\n' :: rest => [] :: lines rest
  | c :: rest =>
      match lines rest with
      | [] => [[c]]
      | line :: more => (c :: line) :: more

/-- The lines of a file. A carriage return right before a line break is a part of it. -/
def fileLines : List Char → List (List Char)
  | [] => [[]]
  | '\n' :: rest => [] :: fileLines rest
  | '\r' :: '\n' :: rest => [] :: fileLines rest
  | c :: rest =>
      match fileLines rest with
      | [] => [[c]]
      | line :: more => (c :: line) :: more

/-- The lines with something on them, each with its number counted from one. -/
def records (text : String) : List (Nat × String) :=
  ((fileLines text.toList).zipIdx 1).filterMap fun (line, number) =>
    if line.all isBlank then none else some (number, String.ofList line)

end Playtest.Text
