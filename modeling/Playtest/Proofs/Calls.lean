import Playtest.Environment

/-!
# Calls and replies

The environment holds the calls that were made of all handlers, one after another, and without the
replies. Doing something in an environment adds some calls to them (`Environment.Made`). A handler
is a function of the calls before, so what it has replied can be computed again
(`Registry.replies`), and what was said while something was done is what the calls that are new and
the replies to them come to (`Environment.dialog`).
-/

namespace Playtest

open Playtest.Scene

/-! ### Replies -/

/-- What a handler **replies** to a call. -/
inductive Reply where
  | accepted
  | refused
  | complete
  | incomplete
  /-- Nobody replies to being told to give up. -/
  | nothing
  deriving Repr, DecidableEq

/-- What a call is for. -/
inductive Call.Kind where
  | start
  | poll
  | abort
  deriving Repr, DecidableEq

/-- What a call is for. -/
def Call.kind : Call → Call.Kind
  | .start .. => .start
  | .poll .. => .poll
  | .abort .. => .abort

/-- What a handler replies to a call that comes after others. -/
def Handler.reply (h : Handler) (earlier : List Call) : Call → Reply
  | .start _ segment action targets snapshot =>
      match h.start earlier segment action targets snapshot with
      | .ok _ => .accepted
      | .error _ => .refused
  | .poll _ segment snapshot =>
      if h.isComplete earlier segment snapshot then .complete else .incomplete
  | .abort .. => .nothing

namespace Registry

variable {registry : Registry}

/-- The handler that is known under a name. -/
def named? (registry : Registry) : HandlerName → Option Handler
  | .ofType type => registry.actions.lookup type
  | .fallback => registry.fallback

/-- A handler that is found for a type is known under the name it is found with. -/
theorem named?_of_handler? {type : String} {handler : HandlerName × Handler}
    (h : registry.handler? type = some handler) : registry.named? handler.1 = some handler.2 := by
  -- its own handler comes first, and the common one takes its place
  unfold handler? at h
  split at h
  · next own hl =>
    cases h
    exact hl
  · obtain ⟨common, hf, rfl⟩ := Option.map_eq_some_iff.mp h
    exact hf

/-- What the handler that is called replies. -/
def reply (registry : Registry) (earlier : List Call) (c : Call) : Reply :=
  ((registry.named? c.handler).map fun handler => handler.reply earlier c).getD .nothing

/-- Calls, and what is replied to each of them. -/
def replies (registry : Registry) : (earlier : List Call) → List Call → List (Call × Reply)
  | _, [] => []
  | earlier, c :: rest =>
      (c, registry.reply earlier c) :: replies registry (earlier ++ [c]) rest

/-- What is replied to two lists of calls is what is replied to the first, and then to the second
with the first before it. -/
theorem replies_append (cs ds : List Call) :
    ∀ earlier, registry.replies earlier (cs ++ ds) =
      registry.replies earlier cs ++ registry.replies (earlier ++ cs) ds := by
  induction cs with
  | nil => intro earlier; rw [List.append_nil]; rfl
  | cons c rest ih =>
    intro earlier
    rw [List.cons_append, replies, ih, replies, List.append_assoc, List.singleton_append]
    rfl

/-- Leaving the replies out leaves the calls. -/
theorem map_fst_replies (registry : Registry) (cs : List Call) :
    ∀ earlier, (registry.replies earlier cs).map Prod.fst = cs := by
  induction cs with
  | nil => exact fun _ => rfl
  | cons c rest ih => exact fun earlier => congrArg (c :: ·) (ih _)

section Reply

variable {type : String} {handler : HandlerName × Handler} {earlier : List Call} {segment : Nat}
  {action : Action} {targets : List Entity} {s : Snapshot}

/-- A call to the handler of a type is answered by that handler. -/
theorem reply_of_handler? {c : Call} (h : registry.handler? type = some handler)
    (hc : c.handler = handler.1) : registry.reply earlier c = handler.2.reply earlier c := by
  rw [reply, hc, named?_of_handler? h]
  rfl

/-- A start that succeeds is accepted. -/
theorem reply_start_ok {answer : Unit} (h : registry.handler? type = some handler)
    (he : handler.2.start earlier segment action targets s = .ok answer) :
    registry.reply earlier (.start handler.1 segment action targets s) = .accepted := by
  rw [reply_of_handler? h rfl, Handler.reply, he]

/-- A start that fails is refused. -/
theorem reply_start_error {causes : Text.Causes} (h : registry.handler? type = some handler)
    (he : handler.2.start earlier segment action targets s = .error causes) :
    registry.reply earlier (.start handler.1 segment action targets s) = .refused := by
  rw [reply_of_handler? h rfl, Handler.reply, he]

/-- A poll is answered as the handler sees it. -/
theorem reply_poll (h : registry.handler? type = some handler) :
    registry.reply earlier (.poll handler.1 segment s) =
      if handler.2.isComplete earlier segment s then .complete else .incomplete :=
  reply_of_handler? h rfl

end Reply

end Registry

namespace Environment

/-! ### What was said -/

/-- Between two environments **some calls were made**, one after another, and the same handlers are
there to answer. -/
structure Made (env : Environment) (calls : List Call) (env' : Environment) : Prop where
  registry : env'.registry = env.registry
  calls : env'.calls = env.calls ++ calls

variable {env env' env'' : Environment} {cs ds : List Call}

/-- What leaves the calls and the handlers alone makes no calls. -/
theorem Made.none (hr : env'.registry = env.registry) (hc : env'.calls = env.calls) :
    env.Made [] env' :=
  ⟨hr, hc.trans (List.append_nil _).symm⟩

/-- Nothing is said in between an environment and itself. -/
theorem Made.refl (env : Environment) : env.Made [] env := .none rfl rfl

/-- The environment with some calls more. -/
def calling (cs : List Call) (env : Environment) : Environment :=
  { env with calls := env.calls ++ cs }

/-- No calls more is no change. -/
theorem calling_nil (env : Environment) : env.calling [] = env := by
  rw [calling, List.append_nil]

/-- Some calls more, and then others. -/
theorem calling_calling (env : Environment) (cs ds : List Call) :
    (env.calling cs).calling ds = env.calling (cs ++ ds) := by
  rw [calling, calling, calling, List.append_assoc]

/-- A call is a list with one call in it. -/
theorem called_eq (env : Environment) (c : Call) : env.called c = env.calling [c] := rfl

/-- The environment with some calls more is one in which they were made. -/
theorem Made.calling (env : Environment) (cs : List Call) : env.Made cs (env.calling cs) :=
  ⟨rfl, rfl⟩

/-- **What is done in two steps** makes the calls of the first and then those of the second. -/
theorem Made.trans (h : env.Made cs env') (h' : env'.Made ds env'') :
    env.Made (cs ++ ds) env'' where
  registry := h'.registry.trans h.registry
  calls := by rw [h'.calls, h.calls, List.append_assoc]

/-- What comes behind some calls and makes none. -/
theorem Made.trans_none (h : env.Made cs env') (h' : env'.Made [] env'') : env.Made cs env'' :=
  List.append_nil cs ▸ h.trans h'

/-- The calls that were made from one environment to another. -/
def callsUntil (env env' : Environment) : List Call := env'.calls.drop env.calls.length

/-- The calls that were made from one environment to another, with what was replied to them. -/
def dialog (env env' : Environment) : List (Call × Reply) :=
  env.registry.replies env.calls (env.callsUntil env')

/-- The calls that were made are those that are found to be new. -/
theorem Made.callsUntil_eq (h : env.Made cs env') : env.callsUntil env' = cs := by
  rw [callsUntil, h.calls, List.drop_left]

/-- What was said is what those calls and the replies to them come to. -/
theorem Made.dialog_eq (h : env.Made cs env') :
    env.dialog env' = env.registry.replies env.calls cs := by
  rw [dialog, h.callsUntil_eq]

/-- What is said in two steps is said in one. -/
theorem Made.dialog_trans (h : env.Made cs env') (h' : env'.Made ds env'') :
    env.dialog env'' =
      env.registry.replies env.calls cs ++ env'.registry.replies env'.calls ds := by
  rw [(h.trans h').dialog_eq, Registry.replies_append, h.registry, h.calls]

end Environment

end Playtest
