import Playtest.Environment

/-!
# Scripted hosts

Handlers, a vision service and predicates that follow a script, for trying sequences out without a
game.

* `Performer.handler` is a handler that is complete after some polls, or fails to start,
* `service` is a vision service that answers its requests one after another from a list,
* `predicates` are conditions on the frame itself.
-/

namespace Playtest.Scripted

open Playtest.Json Playtest.Scene

/-! ### Handlers -/

/-- What a scripted handler does. -/
structure Performer where
  /-- How many polls of a segment find its action incomplete. -/
  polls : Nat
  /-- Why actions fail to start, if they do. -/
  failure : Option Text.Causes
  /-- Whether the handler takes notice of being told to give up. -/
  hearsAbort : Bool

/-- Whether a call is one that a performer takes notice of. -/
def Performer.hears (p : Performer) : Call → Bool
  | .abort _ _ => p.hearsAbort
  | .start .. | .poll .. => true

/-- Whether a call is a poll of a handler for a segment. -/
def isPollFor (name : HandlerName) (segment : Nat) : Call → Bool
  | .poll n s _ => n == name && s == segment
  | .start .. | .abort .. => false

/-- The handler that a performer is under a name. -/
def Performer.handler (p : Performer) (name : HandlerName) : Handler where
  start _ _ _ _ _ :=
    match p.failure with
    | none => .ok ()
    | some causes => .error causes
  isComplete earlier segment _ := p.polls < earlier.countP (isPollFor name segment) + 1
  messages call := if p.hearsAbort then [] else Handler.ignoringAbort call

/-! ### The vision service -/

/-- What a scripted service does with one request. -/
inductive Line where
  /-- Records a reply at once. -/
  | reply (reply : Vision.Reply)
  /-- Does not take the request. -/
  | refusal (reason : String)
  | silence

/-- What comes of a request. -/
def Line.submission (request : Vision.Request) : Line → Vision.Submission
  | .reply r => ⟨[(request.index, r)], none⟩
  | .refusal text => ⟨[], some (text, text)⟩
  | .silence => ⟨[], none⟩

/-- The service that does what a script says, and nothing after its end. -/
def service (script : List Line) : Vision.Service := fun earlier request =>
  (script[earlier.length]?.getD .silence).submission request

/-! ### Predicates -/

/-- The natural number that a value is. -/
def natural? (v : Value) : Option Nat := (Decoder.uint64.ofValue v).toOption.map (·.toNat)

/-- Whether there is anything at a path. -/
def hasPath : Predicate
  | .str path, s => 0 < s.countAt path false
  | _, _ => false

/-- Whether there are at least as many entities at a path as are asked for. -/
def countAtLeast : Predicate := fun args s =>
  match args.field? "path" with
  | some (.str path) =>
      let bound := ((args.field? "n").bind natural?).getD 0
      let isPartial := (args.field? "partial").any (· == .bool true)
      bound ≤ s.countAt path isPartial
  | _ => false

/-- Predicates by name. -/
def predicates : List (String × Predicate) :=
  [("always", fun _ _ => true),
   ("never", fun _ _ => false),
   ("arg_true", fun args _ => args == .bool true),
   ("has_path", hasPath),
   ("count_at_least", countAtLeast),
   ("frame_is", fun args s => natural? args == some s.frame.toNat)]

/-! ### Registries -/

/-- Registers handlers. -/
def addAll : List (String × Handler) → Registry → Except RegistryError Registry
  | [], r => .ok r
  | (type, handler) :: rest, r => (r.addAction type handler).bind (addAll rest)

/-- The registry of some performers and all predicates. -/
def registry (performers : List (String × Performer)) : Except RegistryError Registry :=
  addAll (performers.map fun (type, p) => (type, p.handler (.ofType type)))
    { Registry.empty with predicates }

end Playtest.Scripted
