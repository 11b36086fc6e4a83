import Playtest.Criteria.Document
import Playtest.Criteria.Key
import Playtest.Log
import Playtest.Scene.Snapshot
import Playtest.Vision.Reply

/-!
# Evaluating criteria

Whether criteria hold, looked at from one tick of one segment. Everything that evaluation may look
at is in a `View`, and nothing is changed: what is new, the keys of transient criteria that were met
for the first time, is noted for the caller (`Notes`).

All criteria of a list are evaluated, whatever the earlier ones say, so that transient criteria are
noted whenever they are met, and errors never depend on what else holds.

* `Criteria.evaluateAll` evaluates a list under a join,
* `Criteria.evaluate` evaluates one criteria,
* `CriteriaStatus.combine` is how the statuses of a list become one.
-/

namespace Playtest

open Playtest.Json Playtest.Scene

/-- What evaluating criteria comes to. -/
inductive CriteriaStatus where
  | met
  | unmet (reason : String)
  /-- A wait ran out: the segment may go on although the condition did not hold. -/
  | resolvedByTimeout
  deriving Repr, DecidableEq

/-- Why criteria cannot be evaluated. -/
inductive EvaluationError where
  | unsupported (kind : CriteriaKind) (version : Version)
  | unknownPredicate (name : String)
  deriving Repr, DecidableEq

/-- The wording of an evaluation error. -/
def EvaluationError.message : EvaluationError → String
  | .unsupported kind version =>
      s!"`{kind.name}` criteria requires API version {version.toNat}, but the highest supported "
        ++ s!"version is {Version.current.toNat}"
  | .unknownPredicate name => s!"No custom predicate registered with name `{name}`"

namespace CriteriaStatus

/-- Whether a segment may go on. -/
def isSatisfied : CriteriaStatus → Bool
  | unmet _ => false
  | met | resolvedByTimeout => true

/-- A status as a document. -/
def toValue : CriteriaStatus → Value
  | met => .str "Met"
  | resolvedByTimeout => .str "ResolvedByTimeout"
  | unmet reason => .obj [("unmet", .str reason)]

/-- Why criteria do not hold. -/
def reason? : CriteriaStatus → Option String
  | unmet reason => some reason
  | met | resolvedByTimeout => none

/-- The status of a list from the statuses of its members. Of several reasons the first counts where
all members have to hold, and all of them count where any one would do. -/
def combine (join : Join) (statuses : List CriteriaStatus) : CriteriaStatus :=
  let reasons := statuses.filterMap reason?
  let byTimeout := statuses.contains resolvedByTimeout
  match join with
  | .all =>
      match reasons with
      | reason :: _ => unmet reason
      | [] => if byTimeout then resolvedByTimeout else met
  | .any =>
      if statuses.isEmpty || statuses.contains met then met
      else if byTimeout then resolvedByTimeout
      else unmet (" or ".intercalate reasons)

end CriteriaStatus

/-- A condition that is known under a name. -/
abbrev Predicate := Value → Snapshot → Bool

/-- What evaluation looks at. -/
structure View where
  snapshot : Snapshot
  /-- The snapshot at the last completed segment. -/
  keyFrame : Option Snapshot
  actionComplete : Bool
  /-- The reply to the request under a key. -/
  reply : Key → Option Vision.Reply
  pendingValidations : Nat
  /-- Seconds since the segment began. -/
  elapsed : Float
  predicate : String → Option Predicate
  /-- The transient criteria that were met before. -/
  latched : List Key

/-- What evaluation noted on its way. -/
structure Notes where
  /-- The transient criteria that were met for the first time. -/
  latched : List Key
  messages : List LogMessage

namespace Notes

/-- Nothing noted. -/
def none : Notes := ⟨[], []⟩

/-- One message more. -/
def say (n : Notes) (level : LogLevel) (text : String) : Notes :=
  { n with messages := n.messages ++ [⟨level, text⟩] }

/-- One met transient criteria more. -/
def latch (n : Notes) (key : Key) : Notes :=
  { n.say .debug s!"Transient criteria `{key}` latched" with latched := n.latched ++ [key] }

end Notes

/-! ### Single tests -/

/-- Whether a number of entities satisfies a rule. -/
def CountRule.holds (rule : CountRule) (count bound : Nat) : Bool :=
  match rule with
  | .zero => count == 0
  | .nonZero => 0 < count
  | .greaterThanEqual => bound ≤ count
  | .lessThanEqual => count ≤ bound

/-- Whether a rule asks for no entity at all. -/
def CountRule.wantsAbsence (rule : CountRule) (bound : Nat) : Bool :=
  match rule with
  | .zero => true
  | .lessThanEqual => bound == 0
  | .nonZero | .greaterThanEqual => false

/-- The members of a list that are not in another. -/
def without (xs ys : List Int64) : List Int64 := xs.filter fun x => !ys.contains x

/-- Whether enough entities are at a path, and enough have come and gone since the key frame. -/
def PathTest.evaluate (t : PathTest) (isPartial : Bool) (view : View) : CriteriaStatus :=
  let current := view.snapshot.idsAt t.path isPartial
  let count := current.length
  if count = 0 ∧ t.countRule.wantsAbsence t.count.toNat = false then
    .unmet s!"no entity at `{t.path}`"
  else if t.countRule.holds count t.count.toNat = false then
    .unmet (s!"{count} entities at `{t.path}` do not satisfy {t.countRule.name} "
      ++ s!"{t.count.toNat}")
  else
    let prior := (view.keyFrame.map fun s => s.idsAt t.path isPartial).getD []
    let added := (without current prior).length
    let removed := (without prior current).length
    if added < t.addedCount.toNat ∨ removed < t.removedCount.toNat then
      .unmet (s!"`{t.path}` has {added} added and {removed} removed since the last key frame, "
        ++ s!"wanted at least {t.addedCount.toNat} and {t.removedCount.toNat}")
    else .met

/-- Whether two values are equal: numbers by what they are worth, everything else part by part. -/
def valuesEqual (a b : Value) : Bool :=
  match a.asFloat?, b.asFloat? with
  | some x, some y => x == y
  | _, _ => a == b

mutual

/-- Whether a number lies between two others, or a vector between two others component by
component. -/
def inRange : (actual min max : Value) → Bool
  | .arr as, .arr ls, .arr hs => componentsInRange as ls hs
  | a, l, h =>
      match a.asFloat?, l.asFloat?, h.asFloat? with
      | some x, some lo, some hi => lo ≤ x && x ≤ hi
      | _, _, _ => false

/-- Whether vectors of one length lie in the range component by component. -/
def componentsInRange : (actual min max : List Value) → Bool
  | [], [], [] => true
  | a :: as, l :: ls, h :: hs => inRange a l h && componentsInRange as ls hs
  | _, _, _ => false

end

/-- Whether a value is what an operator asks for. -/
def ValueOperator.holds (op : ValueOperator) (actual : Value) : Bool :=
  match op with
  | .equals expected => valuesEqual actual expected
  | .contains part =>
      match actual, part with
      | .str whole, .str s => Text.contains whole s
      | .arr items, v => items.any fun item => valuesEqual item v
      | _, _ => false
  | .range min max => inRange actual min max

/-- An operator as messages show it. -/
def ValueOperator.describe : ValueOperator → String
  | .equals v => s!"Equals({v.describe})"
  | .contains v => s!"Contains({v.describe})"
  | .range min max => s!"Range \x7b min: {min.describe}, max: {max.describe} \x7d"

/-- Whether some entity at a path has the attribute that is asked for. -/
def ValueTest.evaluate (t : ValueTest) (view : View) : CriteriaStatus :=
  let entities := view.snapshot.entitiesAt t.path false
  if entities.any fun e => (e.attribute? t.attributeName).any t.operator.holds then .met
  else if entities.isEmpty then .unmet s!"no entity at `{t.path}`"
  else .unmet s!"`{t.attributeName}` of `{t.path}` does not satisfy {t.operator.describe}"

/-- Whether the vision service has found what was looked for. -/
def evaluateVision (reply : Option Vision.Reply) : CriteriaStatus :=
  match reply with
  | some .matched => .met
  | some .notMatched => .unmet "vision query did not match"
  | some (.failed reason) => .unmet s!"vision request failed, will retry: {reason}"
  | some .pending | none => .unmet "waiting for vision result"

/-- Whether no validation is pending, or the wait for them has run out. -/
def evaluateValidations (timeout : Float) (view : View) : CriteriaStatus :=
  if view.pendingValidations = 0 then .met
  else if 0.0 < timeout && timeout ≤ view.elapsed then .resolvedByTimeout
  else .unmet s!"{view.pendingValidations} validations still pending"

/-- The messages that go with the status of a test. -/
def Test.messages (t : Test) (view : View) (status : CriteriaStatus) : List LogMessage :=
  match t, status with
  | .validations timeout, .resolvedByTimeout =>
      [⟨.warn, s!"Gave up waiting for {view.pendingValidations} pending validations after "
        ++ s!"{Number.display timeout}s"⟩]
  | _, _ => []

/-- Evaluates the test under a key. -/
def Test.evaluate (t : Test) (key : Key) (view : View) : Except EvaluationError CriteriaStatus :=
  match t with
  | .void => .ok .met
  | .path isPartial test => .ok (test.evaluate isPartial view)
  | .value test => .ok (test.evaluate view)
  | .vision _ _ => .ok (evaluateVision (view.reply key))
  | .validations timeout => .ok (evaluateValidations timeout view)
  | .actionComplete =>
      .ok (if view.actionComplete then .met else .unmet "action has not completed")
  | .custom name args =>
      match view.predicate name with
      | none => .error (.unknownPredicate name)
      | some p =>
          .ok (if p args view.snapshot then .met
            else .unmet s!"custom predicate `{name}` does not hold")

/-! ### Criteria -/

/-- Notes a transient criteria that is met. -/
def Notes.settle (n : Notes) (c : Criteria) (key : Key) (status : CriteriaStatus) : Notes :=
  if c.isTransient && status == .met then n.latch key else n

namespace Criteria

mutual

/-- Evaluates a criteria under its key. Criteria of a later version are an error wherever they
stand; a transient criteria that was met before is met, and nothing below it is looked at. -/
def evaluateKeyed (view : View) (key : Key) :
    Criteria → Notes → Except EvaluationError CriteriaStatus × Notes
  | single v t test, notes =>
      if Version.current < v then (.error (.unsupported test.kind v), notes)
      else if t && view.latched.contains key then (.ok .met, notes)
      else
        match test.evaluate key view with
        | .error e => (.error e, notes)
        | .ok status =>
            let notes := { notes with messages := notes.messages ++ test.messages view status }
            (.ok status, notes.settle (single v t test) key status)
  | group v t join members, notes =>
      if Version.current < v then (.error (.unsupported join.kind v), notes)
      else if t && view.latched.contains key then (.ok .met, notes)
      else
        match evaluateFrom view key 0 members notes with
        | (.error e, notes) => (.error e, notes)
        | (.ok statuses, notes) =>
            let status := CriteriaStatus.combine join statuses
            (.ok status, notes.settle (group v t join members) key status)

/-- Evaluates criteria from a position of their list on. -/
def evaluateFrom (view : View) (parent : Key) :
    (position : Nat) → List Criteria → Notes → Except EvaluationError (List CriteriaStatus) × Notes
  | _, [], notes => (.ok [], notes)
  | position, c :: cs, notes =>
      match evaluateKeyed view (parent.member position) c notes with
      | (.error e, notes) => (.error e, notes)
      | (.ok status, notes) =>
          match evaluateFrom view parent (position + 1) cs notes with
          | (.error e, notes) => (.error e, notes)
          | (.ok statuses, notes) => (.ok (status :: statuses), notes)

end

/-- **Evaluates a list of criteria** under a join. An empty list is met. -/
def evaluateAll (view : View) (parent : Key) (cs : List Criteria) (join : Join) :
    Except EvaluationError CriteriaStatus × Notes :=
  match evaluateFrom view parent 0 cs .none with
  | (.error e, notes) => (.error e, notes)
  | (.ok statuses, notes) => (.ok (CriteriaStatus.combine join statuses), notes)

/-- Evaluates one criteria by itself. -/
def evaluate (view : View) (key : Key) (c : Criteria) :
    Except EvaluationError CriteriaStatus × List LogMessage :=
  let (status, notes) := evaluateKeyed view key c .none
  (status, notes.messages)

end Criteria

end Playtest
