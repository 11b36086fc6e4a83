import Playtest.Action.Handler
import Playtest.Criteria.Evaluation
import Playtest.Text.Quoted

/-!
# Registries

Which handler performs an action type, and which predicate a custom criteria means. A name is
registered at most once.
-/

namespace Playtest

/-- Why something cannot be registered. -/
inductive RegistryError where
  | actionTaken (type : String)
  | predicateTaken (name : String)
  deriving Repr, DecidableEq

/-- The wording of a registry error. -/
def RegistryError.message : RegistryError → String
  | .actionTaken type => s!"Action handler [{type}] is already registered"
  | .predicateTaken name => s!"Custom predicate [{name}] is already registered"

/-- A **registry** of handlers by action type and predicates by name. -/
structure Registry where
  actions : List (String × Handler)
  fallback : Option Handler
  predicates : List (String × Predicate)

namespace Registry

/-- The registry of nothing. -/
def empty : Registry := ⟨[], none, []⟩

/-- Registers the handler of an action type. -/
def addAction (r : Registry) (type : String) (handler : Handler) : Except RegistryError Registry :=
  match r.actions.lookup type with
  | some _ => .error (.actionTaken type)
  | none => .ok { r with actions := r.actions ++ [(type, handler)] }

/-- Gives action types without a handler of their own a handler. -/
def withFallback (r : Registry) (handler : Handler) : Registry :=
  { r with fallback := some handler }

/-- Registers a predicate. -/
def addPredicate (r : Registry) (name : String) (predicate : Predicate) :
    Except RegistryError Registry :=
  match r.predicates.lookup name with
  | some _ => .error (.predicateTaken name)
  | none => .ok { r with predicates := r.predicates ++ [(name, predicate)] }

/-- The handler of an action type, with the name that it is known under. -/
def handler? (r : Registry) (type : String) : Option (HandlerName × Handler) :=
  match r.actions.lookup type with
  | some handler => some (.ofType type, handler)
  | none => r.fallback.map fun handler => (.fallback, handler)

/-- Whether an action type has a handler. -/
def hasAction (r : Registry) (type : String) : Bool := (r.handler? type).isSome

/-- The predicate with a name. -/
def predicate? (r : Registry) (name : String) : Option Predicate := r.predicates.lookup name

/-- Names in their order, each of them quoted. -/
def nameList (names : List String) : String :=
  let ordered := names.mergeSort fun a b => a ≤ b
  "[" ++ ", ".intercalate (ordered.map Text.quoted) ++ "]"

/-- The names in a registry, for people. -/
def describe (r : Registry) : String :=
  s!"CapabilityRegistry \x7b actions: {nameList (r.actions.map (·.1))}, "
    ++ s!"fallback_action: {r.fallback.isSome}, "
    ++ s!"predicates: {nameList (r.predicates.map (·.1))} \x7d"

end Registry

end Playtest
