import Playtest.Json.Reader
import Playtest.Json.Writer

/-!
# Decoding

A `Decoder` reads a node as something: it gives that thing or the first problem in reading order.
Nodes come from a `Source`: straight from a text, or from a value that was read before; the two word
a few problems differently.

The decoders of structures are `Record`s: a record names its fields in order and says for each how
it is read and what stands in when it is absent. A structure may be written as an object, or as an
array of its fields in that order. All fields are read, each problem is noted with its place in
reading order (`Finding`), and the earliest one is reported; so a record's parts can be put together
in any way (`Record.ap`) without a change of what is reported.
-/

namespace Playtest.Json

/-- Where a node comes from. -/
inductive Source where
  | text
  | value
  deriving Repr, DecidableEq

/-- What was found where something else was expected. -/
inductive Found where
  | null
  | bool (b : Bool)
  | int (n : Int)
  | real (x : Real)
  | str (s : String)
  | sequence
  | map
  | unitVariant

/-- How messages call what was found. -/
def Found.describe : Found → String
  | .null => "null"
  | .bool b => s!"boolean `{b}`"
  | .int n => s!"integer `{n}`"
  | .real x => s!"floating point `{realText x}`"
  | .str s => s!"string {Text.quoted s}"
  | .sequence => "sequence"
  | .map => "map"
  | .unitVariant => "unit variant"

/-- Why a text or a value cannot be read as what it should be. -/
inductive DecodeError where
  | fault (fault : Fault)
  | invalidType (found : Found) (expected : String)
  | invalidValue (found : Found) (expected : String)
  | invalidLength (length : Nat) (expected : String)
  | unknownVariant (name : String) (known : List String)
  | unknownField (name : String) (known : List String)
  | missingField (name : String)
  | duplicateField (name : String)
  | rejected (reason : String)

/-- The names that may stand somewhere, as messages list them. -/
def oneOf : List String → String
  | [] => "there are no variants"
  | [a] => s!"expected `{a}`"
  | [a, b] => s!"expected `{a}` or `{b}`"
  | names => "expected one of " ++ ", ".intercalate (names.map fun n => s!"`{n}`")

/-- The wording of a decoding error. -/
def DecodeError.message : DecodeError → String
  | .fault f => f.message
  | .invalidType found expected => s!"invalid type: {found.describe}, expected {expected}"
  | .invalidValue found expected => s!"invalid value: {found.describe}, expected {expected}"
  | .invalidLength n expected => s!"invalid length {n}, expected {expected}"
  | .unknownVariant name known => s!"unknown variant `{name}`, {oneOf known}"
  | .unknownField name known => s!"unknown field `{name}`, {oneOf known}"
  | .missingField name => s!"missing field `{name}`"
  | .duplicateField name => s!"duplicate field `{name}`"
  | .rejected reason => reason

/-- Whether a text is no JSON at all, rather than JSON of another shape. -/
def DecodeError.isSyntax : DecodeError → Bool
  | .fault _ => true
  | _ => false

/-- Reads nodes from a source as an `α`. -/
abbrev Decoder (α : Type) := Source → Node → Except DecodeError α

/-- What a node is called where it was not expected; a fault if it stands for nothing. -/
def Node.found : Node → Except Fault Found
  | .null => .ok .null
  | .bool b => .ok (.bool b)
  | .int n => .ok (.int n.val)
  | .real x => .ok (.real x)
  | .str s => .ok (.str s)
  | .flawed fault => .error fault
  | .broken _ ending => .error ending.read
  | .deep sequence _ => .ok (if sequence then .sequence else .map)
  | .arr _ _ => .ok .sequence
  | .obj _ _ => .ok .map

/-- The error of a node that is not what was expected. -/
def Node.unexpected {α : Type} (n : Node) (expected : String) : Except DecodeError α :=
  match n.found with
  | .ok found => .error (.invalidType found expected)
  | .error fault => .error (.fault fault)

namespace Decoder

variable {α β : Type}

/-- Any value. -/
def value : Decoder Value := fun _ n => n.toValue.mapError .fault

/-- A string; `expected` is what messages ask for. -/
def text (expected : String := "a string") : Decoder String := fun _ n =>
  match n with
  | .str s => .ok s
  | _ => n.unexpected expected

/-- A truth value. -/
def bool : Decoder Bool := fun _ n =>
  match n with
  | .bool b => .ok b
  | _ => n.unexpected "a boolean"

/-- Nothing. -/
def unit : Decoder Unit := fun _ n =>
  match n with
  | .null => .ok ()
  | _ => n.unexpected "unit"

/-- An integer from `low` up to below `high`. -/
def integer (low high : Int) (expected : String) : Decoder Int := fun _ n =>
  match n with
  | .int i =>
      if low ≤ i.val ∧ i.val < high then .ok i.val
      else .error (.invalidValue (.int i.val) expected)
  | _ => n.unexpected expected

/-- A 32-bit count. -/
def uint32 : Decoder UInt32 := fun s n => do
  let i ← integer 0 UInt32.size "u32" s n
  return UInt32.ofNat i.toNat

/-- A 64-bit count. -/
def uint64 : Decoder UInt64 := fun s n => do
  let i ← integer 0 UInt64.size "u64" s n
  return UInt64.ofNat i.toNat

/-- A 64-bit count of things. -/
def count : Decoder UInt64 := fun s n => do
  let i ← integer 0 UInt64.size "usize" s n
  return UInt64.ofNat i.toNat

/-- A signed 32-bit number. -/
def int32 : Decoder Int32 := fun s n => do
  let i ← integer Int32.minValue.toInt (Int32.maxValue.toInt + 1) "i32" s n
  return Int32.ofInt i

/-- A signed 64-bit number. -/
def int64 : Decoder Int64 := fun s n => do
  let i ← integer Int64.minValue.toInt (Int64.maxValue.toInt + 1) "i64" s n
  return Int64.ofInt i

/-- A float; integers count as floats. -/
def float : Decoder Float := fun _ n =>
  match n with
  | .int i => .ok (Number.doubleOfInt i.val)
  | .real x => .ok x.val
  | _ => n.unexpected "f64"

/-- A 32-bit float; integers count as floats. -/
def single : Decoder Float32 := fun _ n =>
  match n with
  | .int i => .ok (Number.singleOfInt i.val)
  | .real x => .ok (Number.narrow x.val)
  | _ => n.unexpected "f32"

/-- Null, or what `d` reads. -/
def option (d : Decoder α) : Decoder (Option α) := fun s n =>
  match n with
  | .null => .ok none
  | .broken .null ending => .error (.fault ending.read)
  | _ => (d s n).map some

/-- What `d` reads, gone through a check of its own. -/
def andThen (d : Decoder α) (check : α → Except String β) : Decoder β := fun s n => do
  let a ← d s n
  (check a).mapError .rejected

/-- Items one after another. -/
def items (d : Decoder α) (s : Source) : List Node → Except DecodeError (List α)
  | [] => .ok []
  | n :: ns => do
      let a ← d s n
      let as ← items d s ns
      return a :: as

/-- A list. -/
def list (d : Decoder α) : Decoder (List α) := fun s n =>
  match n with
  | .arr nodes unfinished => do
      let as ← items d s nodes
      match unfinished with
      | some ending => .error (.fault ending.read)
      | none => .ok as
  | .deep true _ => .error (.fault .tooDeep)
  | _ => n.unexpected "a sequence"

/-- The fields of an object, as values in the order of their keys. -/
def fields : Decoder Fields := fun _ n =>
  match n with
  | .obj nodes unfinished => do
      let fs ← (Node.fieldsToValues nodes []).mapError .fault
      match unfinished with
      | some ending => .error (.fault ending.read)
      | none => .ok fs
  | .deep false _ => .error (.fault .tooDeep)
  | _ => n.unexpected "a map"

end Decoder

/-! ### Structures -/

/-- A problem and its place in reading order. -/
structure Finding where
  place : Nat
  error : DecodeError

/-- A part of a structure, or the first problem with it. -/
abbrev Reading (α : Type) := Except Finding α

/-- Puts two parts together. Of two problems the earlier one stays, the left one if they are noticed
at the same place. -/
def Reading.both {α β : Type} (f : Reading (α → β)) (x : Reading α) : Reading β :=
  match f, x with
  | .ok g, .ok a => .ok (g a)
  | .ok _, .error e => .error e
  | .error e, .ok _ => .error e
  | .error d, .error e => .error (if e.place < d.place then e else d)

/-- What a structure's text offers to its fields. -/
structure Offer where
  source : Source
  /-- Whether fields are told by their position and not by name. -/
  positional : Bool
  /-- The node of a field, with its place. -/
  find : String → Option (Nat × Node)
  /-- The problem of a field that is needed and not there. -/
  missing : String → Finding

/-- What stands in for a field that is not there. -/
inductive Absent (α : Type) where
  /-- Nothing: the field is needed. -/
  | refused
  /-- A default. -/
  | filled (a : α)
  /-- A default in objects only: an array has to go as far as this field. -/
  | filledByName (a : α)

/-- The decoder of a structure: the names of its fields in order, each with the other names under
which the field may be written, and how all of them are read. -/
structure Record (α : Type) where
  names : List (List String)
  read : Offer → Reading α

namespace Record

variable {α β : Type}

/-- A field read by `d`, under one of several names, the first of which is its own. -/
def named (name : String) (others : List String) (d : Decoder α) (absent : Absent α) :
    Record α where
  names := [name :: others]
  read offer :=
    match offer.find name with
    | some (place, node) => (d offer.source node).mapError fun e => ⟨place, e⟩
    | none =>
        match absent with
        | .refused => .error (offer.missing name)
        | .filled a => .ok a
        | .filledByName a => if offer.positional then .error (offer.missing name) else .ok a

/-- A field that has to be there. -/
def field (name : String) (d : Decoder α) : Record α := named name [] d .refused

/-- A field with a default. -/
def fieldOr (name : String) (d : Decoder α) (default : α) : Record α :=
  named name [] d (.filled default)

/-- A field that may be null or left out of an object. -/
def fieldOption (name : String) (d : Decoder α) : Record (Option α) :=
  named name [] d.option (.filledByName none)

/-- A field that may be null or left out. -/
def fieldMaybe (name : String) (d : Decoder α) : Record (Option α) :=
  named name [] d.option (.filled none)

/-- A structure without fields. -/
def pure (a : α) : Record α := ⟨[], fun _ => .ok a⟩

/-- Adds the next fields. -/
def ap (f : Record (α → β)) (x : Record α) : Record β where
  names := f.names ++ x.names
  read offer := Reading.both (f.read offer) (x.read offer)

/-- A structure built from its first fields. -/
def map (f : α → β) (x : Record α) : Record β := ap (pure f) x

instance : Functor Record where
  map := map

instance : Seq Record where
  seq f x := ap f (x ())

/-- The own name of the field that may be written as `key`. -/
def ownName? (names : List (List String)) (key : String) : Option String :=
  (names.find? fun aliases => aliases.contains key).bind List.head?

/-- The fields of an object that belong to a structure, with their places; and the first problem
that the others or a repetition bring. -/
def scan (names : List (List String)) (strict : Bool) :
    (place : Nat) → (seen : List (String × Nat × Node)) → List (Except Fault String × Node) →
      List (String × Nat × Node) × Option Finding
  | _, seen, [] => (seen, none)
  | place, seen, (.error fault, _) :: _ => (seen, some ⟨place, .fault fault⟩)
  | place, seen, (.ok key, node) :: rest =>
      match ownName? names key with
      | some own =>
          if seen.any fun entry => entry.1 == own then
            (seen, some ⟨place, .duplicateField own⟩)
          else scan names strict (place + 1) ((own, place, node) :: seen) rest
      | none =>
          if strict then (seen, some ⟨place, .unknownField key names.flatten⟩)
          else
            match node.skip with
            | .error fault => (seen, some ⟨place, .fault fault⟩)
            | .ok () => scan names strict (place + 1) seen rest

/-- The earlier of what reading found and what else was found. -/
def settle (reading : Reading α) (other : Option Finding) : Except DecodeError α :=
  match reading, other with
  | .ok a, none => .ok a
  | .ok _, some f => .error f.error
  | .error e, none => .error e.error
  | .error e, some f => .error (if e.place < f.place then e.error else f.error)

/-- How messages call a structure with its number of fields. -/
def describe (title : String) (names : List (List String)) : String :=
  let noun := if names.length = 1 then "element" else "elements"
  s!"{title} with {names.length} {noun}"

/-- Reads a structure from the fields of an object. -/
def ofFields (r : Record α) (strict : Bool) (s : Source)
    (nodes : List (Except Fault String × Node)) (unfinished : Option Ending) :
    Except DecodeError α :=
  let (seen, problem) := scan r.names strict 0 [] nodes
  let ending := unfinished.map fun e => (⟨nodes.length, .fault e.read⟩ : Finding)
  let offer : Offer :=
    { source := s
      positional := false
      find := fun name => (seen.find? fun entry => entry.1 == name).map (·.2)
      missing := fun name => ⟨nodes.length + 1, .missingField name⟩ }
  settle (r.read offer) (problem.or ending)

/-- What breaks off an array behind the last field of a structure: nothing else than the end is
wanted there. -/
def behindLast (e : Ending) : Fault :=
  match e.read with
  | .endInList => .endInList
  | .trailingComma => .trailingComma
  | _ => .trailingCharacters

/-- Reads a structure from the items of an array. -/
def ofItems (r : Record α) (title : String) (s : Source) (nodes : List Node)
    (unfinished : Option Ending) : Except DecodeError α :=
  let position := fun name => r.names.findIdx fun aliases => aliases.head? == some name
  let surplus : Option Finding :=
    if r.names.length < nodes.length then
      some ⟨r.names.length,
        match s with
        | .text => .fault .trailingCharacters
        | .value => .invalidLength nodes.length "fewer elements in array"⟩
    else none
  let ending := unfinished.map fun e =>
    (⟨nodes.length, .fault (if nodes.length = r.names.length then behindLast e else e.read)⟩ :
      Finding)
  let offer : Offer :=
    { source := s
      positional := true
      find := fun name =>
        let i := position name
        nodes[i]?.map fun node => (i, node)
      missing := fun name =>
        ⟨nodes.length + 1, .invalidLength (position name) (describe title r.names)⟩ }
  settle (r.read offer) (surplus.or ending)

/-- The decoder of a structure, which messages call by its title. -/
def decoder (r : Record α) (title : String) (strict : Bool := false) : Decoder α := fun s n =>
  match n with
  | .obj nodes unfinished => r.ofFields strict s nodes unfinished
  | .arr nodes unfinished => r.ofItems title s nodes unfinished
  | .deep _ _ => .error (.fault .tooDeep)
  | _ => n.unexpected title

end Record

/-! ### Alternatives -/

/-- One of several forms: a word by itself, a word with a payload, or a word with named fields. -/
inductive Variant (α : Type) where
  | word (a : α)
  | payload (d : Decoder α)
  | fields (title : String) (r : Record α)

namespace Variant

variable {α : Type}

/-- The form behind a bare name. -/
def bare : Variant α → Except DecodeError α
  | .word a => .ok a
  | .payload _ => .error (.invalidType .unitVariant "newtype variant")
  | .fields _ _ => .error (.invalidType .unitVariant "struct variant")

/-- The form behind a name with a node. -/
def within (v : Variant α) (s : Source) (n : Node) : Except DecodeError α :=
  match v with
  | .word a => (Decoder.unit s n).map fun _ => a
  | .payload d => d s n
  | .fields title r =>
      match s, n with
      | .value, .obj nodes unfinished => r.ofFields false s nodes unfinished
      | .value, _ => n.unexpected "struct variant"
      | .text, _ => r.decoder title false s n

/-- The form with a name. -/
def find (forms : List (String × Variant α)) (name : String) : Except DecodeError (Variant α) :=
  match forms.find? fun form => form.1 == name with
  | some form => .ok form.2
  | none => .error (.unknownVariant name (forms.map (·.1)))

/-- What breaks off an object behind its only field: nothing else than the end is wanted there. -/
def behindOnly (e : Ending) : Fault :=
  if e.read = .endInObject then .endInObject else .expectedValue

/-- Reads one of several forms: the name alone, or an object with the name as its only key. Anything
else is not looked at, so a token that is no string need not even be complete to be refused. -/
def decoder (forms : List (String × Variant α)) : Decoder α := fun s n =>
  match n with
  | .str name => do (← find forms name).bare
  | .flawed fault => .error (.fault (if fault = .numberOutOfRange then .expectedValue else fault))
  | .broken .nothing ending | .broken .text ending => .error (.fault ending.read)
  | .broken _ _ => .error (.fault .expectedValue)
  | .deep false _ => .error (.fault .tooDeep)
  | .obj nodes unfinished =>
      match s with
      | .text =>
          match nodes with
          | [] => .error (.fault ((unfinished.map Ending.read).getD .expectedValue))
          | (key, node) :: rest => do
              let name ← key.mapError .fault
              let form ← find forms name
              let a ← form.within s node
              match rest, unfinished with
              | [], none => .ok a
              | [], some ending => .error (.fault (behindOnly ending))
              | _ :: _, _ => .error (.fault .expectedValue)
      | .value =>
          match nodes with
          | [(key, node)] => do
              let name ← key.mapError .fault
              let form ← find forms name
              form.within s node
          | _ => .error (.invalidValue .map "map with a single key")
  | _ =>
      match s with
      | .text => .error (.fault .expectedValue)
      | .value => n.unexpected "string or map"

end Variant

/-- Reads a name that stands for one of several things. -/
def Decoder.word {α : Type} (words : List (String × α)) : Decoder α :=
  Variant.decoder (words.map fun w => (w.1, .word w.2))

/-! ### Whole documents -/

/-- Reads a text from its start to its end. -/
def Decoder.ofText {α : Type} (d : Decoder α) (text : String) : Except DecodeError α := do
  let (node, trailing) := Node.ofText text
  let a ← d .text node
  match trailing with
  | some fault => .error (.fault fault)
  | none => .ok a

/-- Reads a value. -/
def Decoder.ofValue {α : Type} (d : Decoder α) (v : Value) : Except DecodeError α :=
  d .value (Node.ofValue v)

end Playtest.Json
