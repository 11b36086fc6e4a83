import Playtest.Action
import Playtest.Log
import Playtest.Scene.Snapshot
import Playtest.Text.Causes

/-!
# Handlers

A handler performs the actions of a type. It is told to start an action, is then asked on every tick
whether the action is complete, and may be told to give up. One handler serves all segments, so each
call names the segment by its number in the run.

What a handler answers may depend on everything that it, or any other handler, was called for
before: a handler is a function of the calls so far (`Call`), and has no other memory.
-/

namespace Playtest

open Playtest.Json Playtest.Scene

/-- The name that a handler is known under. -/
inductive HandlerName where
  | ofType (type : String)
  /-- The handler of all action types that have none of their own. -/
  | fallback
  deriving DecidableEq

/-- How a handler is named where its calls are shown. -/
def HandlerName.shown : HandlerName → String
  | .ofType type => type
  | .fallback => "fallback"

/-- One **call** of a handler, for the segment with a number. -/
inductive Call where
  | start (handler : HandlerName) (segment : Nat) (action : Action) (targets : List Entity)
      (snapshot : Snapshot)
  | poll (handler : HandlerName) (segment : Nat) (snapshot : Snapshot)
  | abort (handler : HandlerName) (segment : Nat)

namespace Call

/-- The segment that a call is for. -/
def segment : Call → Nat
  | start _ segment _ _ _ | poll _ segment _ | abort _ segment => segment

/-- The handler that is called. -/
def handler : Call → HandlerName
  | start handler _ _ _ _ | poll handler _ _ | abort handler _ => handler

/-- What every call has, as the fields of a document. -/
def fields (c : Call) (kind : String) : Fields :=
  [("call", .str kind), ("handler", .str c.handler.shown),
    ("segment", .ofNat c.segment)]

/-- A call as a document. -/
def toValue (c : Call) : Value :=
  match c with
  | start _ _ action targets snapshot =>
      .obj (c.fields "start" ++
        [("type", .str action.type), ("data", action.data),
          ("frame", .int (.ofUInt64 snapshot.frame)),
          ("targets", .arr (targets.map fun e => .arr [.int (.ofInt64 e.id), .str e.path]))])
  | poll _ _ _ => .obj (c.fields "poll")
  | abort _ _ => .obj (c.fields "abort")

end Call

/-- A **handler**. Each answer gets the calls that were made earlier, the first one first. -/
structure Handler where
  start : (earlier : List Call) → (segment : Nat) → Action → (targets : List Entity) → Snapshot →
    Except Text.Causes Unit
  isComplete : (earlier : List Call) → (segment : Nat) → Snapshot → Bool
  /-- What the handler logs about a call. -/
  messages : Call → List LogMessage

namespace Handler

/-- What a handler logs that does nothing when it is told to give up. -/
def ignoringAbort : Call → List LogMessage
  | .abort _ segment => [⟨.debug, s!"Abort requested for the action of segment {segment}"⟩]
  | .start .. | .poll .. => []

/-- What is logged in place of performing an action. -/
def wouldPerform (segment : Nat) (action : Action) (targets : List Entity) (snapshot : Snapshot) :
    LogMessage :=
  let paths := ", ".intercalate (targets.map fun e => s!"`{e.normalizedPath}`")
  let receivers := if targets.isEmpty then "" else s!" on {paths}"
  ⟨.info, s!"Segment {segment} would perform `{action.type}`{receivers} on frame "
    ++ s!"{snapshot.frame.toNat}: {action.data.render}"⟩

/-- The handler for recordings. Nothing can be done to a recording, so every action is logged and
complete at once. -/
def logged : Handler where
  start _ _ _ _ _ := .ok ()
  isComplete _ _ _ := true
  messages
    | .start _ segment action targets snapshot => [wouldPerform segment action targets snapshot]
    | call => ignoringAbort call

end Handler

end Playtest
