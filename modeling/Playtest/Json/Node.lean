import Playtest.Json.Value

/-!
# What reading finds

A `Node` is a value as it was met in a text, before anyone asked what it should be. A text that is
no JSON still has a node: everything up to the first fault, which stands at its place in the tree.
So a reader that goes through a node in order meets the problems of the text in the order of the
text.

Two sorts of fault are kept apart. A `broken` place ends the text: nothing after it is known. A
`flawed` token is complete but stands for nothing (a number beyond all floats, half of a surrogate
pair); it matters to who reads it and not to who skips it. The same holds of a `deep` container,
which is nested further than documents may be. And who skips a broken place looks at it less closely
than who reads it, so its fault can have two wordings (`Ending`).

* `Node.skip` is what skipping a node may still find,
* `Node.toValue` reads any node as a value,
* `Node.ofValue` is the node of a value.
-/

namespace Playtest.Json

/-- What can be wrong with a text. -/
inductive Fault where
  | endInList
  | endInObject
  | endInString
  | endInValue
  | expectedColon
  | expectedListCommaOrEnd
  | expectedObjectCommaOrEnd
  | expectedIdent
  | expectedValue
  | invalidEscape
  | invalidNumber
  | numberOutOfRange
  | controlCharacter
  | keyMustBeString
  | loneSurrogate
  | unfinishedSurrogate
  | trailingComma
  | trailingCharacters
  | tooDeep
  deriving Repr, DecidableEq

/-- The wording of a fault. -/
def Fault.message : Fault → String
  | .endInList => "EOF while parsing a list"
  | .endInObject => "EOF while parsing an object"
  | .endInString => "EOF while parsing a string"
  | .endInValue => "EOF while parsing a value"
  | .expectedColon => "expected `:`"
  | .expectedListCommaOrEnd => "expected `,` or `]`"
  | .expectedObjectCommaOrEnd => "expected `,` or `\x7d`"
  | .expectedIdent => "expected ident"
  | .expectedValue => "expected value"
  | .invalidEscape => "invalid escape"
  | .invalidNumber => "invalid number"
  | .numberOutOfRange => "number out of range"
  | .controlCharacter =>
      "control character (\\u0000-\\u001F) found while parsing a string"
  | .keyMustBeString => "key must be a string"
  | .loneSurrogate => "lone leading surrogate in hex escape"
  | .unfinishedSurrogate => "unexpected end of hex escape"
  | .trailingComma => "trailing comma"
  | .trailingCharacters => "trailing characters"
  | .tooDeep => "recursion limit exceeded"

/-- Where a text ends before its value does: the fault that a reader of the value meets, and the one
that is met when the value is skipped. -/
structure Ending where
  read : Fault
  skipped : Fault
  deriving Repr, DecidableEq

/-- An ending that is the same to both. -/
def Ending.both (fault : Fault) : Ending := ⟨fault, fault⟩

/-- How a broken place begins, so far as readers tell such places apart. Where no token was met, the
fault is that of the place and not of a token. -/
inductive Opening where
  | nothing
  | text
  | null
  | other
  deriving Repr, DecidableEq

/-- A value as it was met in a text. The last part of a container is what kept it from being
finished, if something did. -/
inductive Node where
  | null
  | bool (b : Bool)
  | int (n : Integer)
  | real (x : Real)
  | str (s : String)
  | flawed (fault : Fault)
  | broken (opening : Opening) (ending : Ending)
  | deep (sequence : Bool) (unfinished : Option Ending)
  | arr (items : List Node) (unfinished : Option Ending)
  | obj (fields : List (Except Fault String × Node)) (unfinished : Option Ending)

namespace Node

/-- How the text ended inside a node. -/
def ending? : Node → Option Ending
  | .broken _ ending => some ending
  | .deep _ unfinished => unfinished
  | .arr _ unfinished => unfinished
  | .obj _ unfinished => unfinished
  | _ => none

/-- Skipping a node reads nothing in it, but finds where the text ends. -/
def skip (n : Node) : Except Fault Unit :=
  match n.ending? with
  | some ending => .error ending.skipped
  | none => .ok ()

mutual

/-- Reads a node as a value, whatever it is. Of fields with one key the last counts. -/
def toValue : Node → Except Fault Value
  | .null => .ok .null
  | .bool b => .ok (.bool b)
  | .int n => .ok (.int n)
  | .real x => .ok (.real x)
  | .str s => .ok (.str s)
  | .flawed fault => .error fault
  | .broken _ ending => .error ending.read
  | .deep _ _ => .error .tooDeep
  | .arr items unfinished => do
      let values ← itemsToValues items
      match unfinished with
      | some ending => .error ending.read
      | none => .ok (.arr values)
  | .obj fields unfinished => do
      let values ← fieldsToValues fields []
      match unfinished with
      | some ending => .error ending.read
      | none => .ok (.obj values)

/-- Reads item by item. -/
def itemsToValues : List Node → Except Fault (List Value)
  | [] => .ok []
  | n :: ns => do
      let v ← toValue n
      let vs ← itemsToValues ns
      return v :: vs

/-- Reads field by field into the fields that came before. -/
def fieldsToValues : List (Except Fault String × Node) → Fields → Except Fault Fields
  | [], acc => .ok acc
  | (key, n) :: ns, acc => do
      let k ← key
      let v ← toValue n
      fieldsToValues ns (Fields.insert k v acc)

end

mutual

/-- The node of a value. -/
def ofValue : Value → Node
  | .null => .null
  | .bool b => .bool b
  | .int n => .int n
  | .real x => .real x
  | .str s => .str s
  | .arr items => .arr (ofItems items) none
  | .obj fields => .obj (ofFields fields) none

/-- The nodes of items. -/
def ofItems : List Value → List Node
  | [] => []
  | v :: vs => ofValue v :: ofItems vs

/-- The nodes of fields. -/
def ofFields : List (String × Value) → List (Except Fault String × Node)
  | [] => []
  | (k, v) :: vs => (.ok k, ofValue v) :: ofFields vs

end

end Node

end Playtest.Json
