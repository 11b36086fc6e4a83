import Playtest.Registry
import Playtest.Scene.Resolver
import Playtest.Vision.Coordinator

/-!
# Environments

Everything a run works with: the resolver of frames, the registry, the vision requests in flight and
the monitor of validations. All segments of a run share one environment, and an environment may
serve several runs, one after another.

`Turn` is what doing something with a part of a run in an environment comes to. What is logged on
the way is kept apart from the environment, so that nothing can depend on it.
-/

namespace Playtest

open Playtest.Scene

/-- Tells how many validations have not finished. They are the host's and go on by themselves, so
the monitor is asked anew each time that criteria are evaluated. Its answer gets the calls of
handlers that were made earlier and the number of the segment, so that any two answers of one tick
may differ. -/
structure ValidationMonitor where
  pending : (earlier : List Call) → (segment : Nat) → Nat

namespace ValidationMonitor

/-- The monitor of a number of validations none of which ever finishes. -/
def fixed (n : Nat) : ValidationMonitor := ⟨fun _ _ => n⟩

instance : Coe Nat ValidationMonitor := ⟨fixed⟩

end ValidationMonitor

/-- The **environment** of a run. -/
structure Environment where
  resolver : Resolver
  registry : Registry
  vision : Vision.Coordinator
  /-- How many validations have not finished. No run changes them. -/
  pendingValidations : ValidationMonitor
  /-- All calls of handlers, the first one first. -/
  calls : List Call

namespace Environment

/-- An environment without a vision service and without validations. -/
def of (registry : Registry) : Environment := ⟨.fresh, registry, .of none, .fixed 0, []⟩

/-- The environment for a new run: paths and vision requests are forgotten. -/
def reset (env : Environment) : Environment :=
  { env with resolver := env.resolver.reset, vision := env.vision.reset }

/-- The environment with one call more. -/
def called (env : Environment) (call : Call) : Environment :=
  { env with calls := env.calls ++ [call] }

end Environment

/-- What is left after something was done with a **subject** in an environment. -/
structure Turn (α : Type) where
  subject : α
  env : Environment
  messages : List LogMessage

namespace Turn

variable {α β : Type}

/-- Nothing was done. -/
def still (a : α) (env : Environment) : Turn α := ⟨a, env, []⟩

/-- Nothing was done but saying something. -/
def saying (level : LogLevel) (text : String) (a : α) (env : Environment) : Turn α :=
  ⟨a, env, [⟨level, text⟩]⟩

/-- One thing after another. -/
def andThen (t : Turn α) (f : α → Environment → Turn β) : Turn β :=
  let u := f t.subject t.env
  { u with messages := t.messages ++ u.messages }

/-- The same with a part of something larger. -/
def map (f : α → β) (t : Turn α) : Turn β := ⟨f t.subject, t.env, t.messages⟩

@[simp] theorem subject_still (a : α) (env : Environment) : (still a env).subject = a := rfl

@[simp] theorem env_still (a : α) (env : Environment) : (still a env).env = env := rfl

@[simp] theorem subject_saying (l : LogLevel) (s : String) (a : α) (env : Environment) :
    (saying l s a env).subject = a := rfl

@[simp] theorem env_saying (l : LogLevel) (s : String) (a : α) (env : Environment) :
    (saying l s a env).env = env := rfl

@[simp] theorem subject_andThen (t : Turn α) (f : α → Environment → Turn β) :
    (t.andThen f).subject = (f t.subject t.env).subject := rfl

@[simp] theorem env_andThen (t : Turn α) (f : α → Environment → Turn β) :
    (t.andThen f).env = (f t.subject t.env).env := rfl

@[simp] theorem subject_map (f : α → β) (t : Turn α) : (t.map f).subject = f t.subject := rfl

@[simp] theorem env_map (f : α → β) (t : Turn α) : (t.map f).env = t.env := rfl

end Turn

end Playtest
