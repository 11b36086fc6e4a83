/-!
# Chains of causes

An error is told from the outside in: what could not be done, then why, then why that.
-/

namespace Playtest.Text

/-- An error and the errors that led to it, the outermost one first. -/
structure Causes where
  outermost : String
  inner : List String
  deriving Repr, DecidableEq

namespace Causes

/-- An error that says everything by itself. -/
def of (text : String) : Causes := ⟨text, []⟩

/-- The same error as the cause of another one. -/
def within (c : Causes) (context : String) : Causes := ⟨context, c.outermost :: c.inner⟩

/-- All texts, the outermost one first. -/
def texts (c : Causes) : List String := c.outermost :: c.inner

/-- The chain on one line. -/
def line (c : Causes) : String := ": ".intercalate c.texts

/-- A text of which every line but the first is moved to the right. -/
def hang (indent : String) (text : String) : String :=
  String.ofList (text.toList.flatMap fun c => if c = '\n' then '\n' :: indent.toList else [c])

/-- A number at the right end of a column. -/
def column (width : Nat) (n : Nat) : String :=
  let digits := toString n
  String.ofList (List.replicate (width - digits.length) ' ') ++ digits

/-- Causes with their numbers, the first of which is `number`. -/
def numbered : (number : Nat) → List String → String
  | _, [] => ""
  | number, cause :: rest =>
      s!"\n{column 5 number}: " ++ hang "       " cause ++ numbered (number + 1) rest

/-- The chain as a report of several lines. A single cause has no number. -/
def report (c : Causes) : String :=
  match c.inner with
  | [] => c.outermost
  | [cause] => c.outermost ++ "\n\nCaused by:\n    " ++ hang "    " cause
  | causes => c.outermost ++ "\n\nCaused by:" ++ numbered 0 causes

end Causes

end Playtest.Text
