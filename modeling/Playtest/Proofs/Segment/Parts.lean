import Playtest.Proofs.Calls
import Playtest.Segment.Run

/-!
# The parts of a tick

A tick of a segment that has not ended has three parts, and `SegmentRun.tick_parts` says that there
is nothing else to it:

* it **opens** with what is due in the state of the segment: the segment begins, its action is
  started, or its action is polled (`SegmentRun.Opens`),
* the criteria that the segment waits for by then are **judged** (`SegmentRun.Judges`),
* it **closes** with a look at the time that is left (`SegmentRun.Closes`).

Handlers are called only where a tick opens or closes, and each part comes with the calls that it
makes (`Environment.Made`). What is true of the state, the history and the calls of a segment is
read off these three relations, and nobody has to look into a tick again.

What is true of vision requests and of reasons takes more than that. `SegmentRun.tick_stages` says
the same with every environment on the way, and `SegmentRun.Inspects` in place of
`SegmentRun.Judges` says which criteria are evaluated, where, and what comes of it.
-/

namespace Playtest

open Playtest.Scene

namespace SegmentState

/-- Whether a segment is waiting for something. -/
def isWaiting : SegmentState → Bool
  | awaitingEntry | executing | awaitingCompletion => true
  | pending | completed | timedOut | failed | skipped => false

end SegmentState

/-- The state in which a segment waits for the criteria of a phase. -/
def Phase.state : Phase → SegmentState
  | .entry => .awaitingEntry
  | .completion => .awaitingCompletion

theorem Phase.state_isWaiting (p : Phase) : p.state.isWaiting := by
  cases p <;> rfl

theorem Phase.state_not_isTerminal (p : Phase) : ¬ p.state.isTerminal := by
  cases p <;> decide

theorem Phase.eq_of_state_eq {p q : Phase} (h : p.state = q.state) : p = q := by
  cases p <;> cases q <;> first | rfl | exact absurd h (by decide)

namespace SegmentRun

variable {m : Moment} {r r' : SegmentRun} {env env' : Environment}

/-! ### What a part makes of a run -/

/-- The run after it has entered a state. -/
def entered (state : SegmentState) (r : SegmentRun) : SegmentRun :=
  { r with state, history := r.history ++ [(state, r.ticks)] }

/-- The run after it has failed for a reason. -/
def failed (reason : String) (r : SegmentRun) : SegmentRun :=
  { r with detail := some reason }.entered .failed

theorem isTerminal_failed (reason : String) : (r.failed reason).state.isTerminal = true := rfl

/-- The run after its time was up, for a reason. -/
def timedOut (reason : String) (r : SegmentRun) : SegmentRun :=
  { r with detail := some reason }.entered .timedOut

/-- The run after its action was started, with what the handler has said about it right after
that. -/
def started (isComplete : Bool) (r : SegmentRun) : SegmentRun :=
  { r with isDispatched := true, isActionComplete := isComplete }.entered .awaitingCompletion

/-- The run has **taken note** of what its criteria have come to. -/
inductive Noted (r : SegmentRun) : SegmentRun → Prop
  | intro (latched : List Key) (lastUnmet : Option String) (validationsTimedOut : Bool) :
      Noted r { r with latched, lastUnmet, validationsTimedOut }

theorem Noted.refl (r : SegmentRun) : Noted r r :=
  .intro r.latched r.lastUnmet r.validationsTimedOut

/-! ### The three parts -/

/-- Everything is there to start an action: it is the segment's turn to do so, its targets were
found, and a handler is registered. -/
structure Aims (m : Moment) (env : Environment) (r : SegmentRun) (action : Action)
    (targets : List Entity) (handler : HandlerName × Handler) : Prop where
  state : r.state = .executing
  targets : targets? action m.snapshot = some targets
  handler : env.registry.handler? action.type = some handler
  action : r.segment.action = some action

/-- The **ways in which a tick can open**, with the calls that are made. -/
inductive Opens (m : Moment) (env : Environment) (r : SegmentRun) : List Call → SegmentRun → Prop
  | begin (hs : r.state = .pending) : Opens m env r [] (r.entered .awaitingEntry)
  | wait (hs : r.state = .awaitingEntry) : Opens m env r [] r
  /-- There is no action to start. -/
  | pass (hs : r.state = .executing) (ha : r.segment.action = none) :
      Opens m env r [] (r.started true)
  /-- The target of the action is still missing. -/
  | missing {action : Action} (hs : r.state = .executing) (ha : r.segment.action = some action)
      (ht : targets? action m.snapshot = none) (hd : ¬ r.isDispatched) (lastUnmet : Option String) :
      Opens m env r [] { r with lastUnmet }
  /-- The action was started before, but the segment has not gone on. No run comes to this. -/
  | astray (hs : r.state = .executing) (hd : r.isDispatched) (lastUnmet : Option String) :
      Opens m env r [] ({ r with lastUnmet }.entered .awaitingCompletion)
  /-- The action is too new, or nobody handles it. -/
  | unable (hs : r.state = .executing) (reason : String) : Opens m env r [] (r.failed reason)
  | refuse {action : Action} {targets : List Entity} {handler : HandlerName × Handler}
      (aim : Aims m env r action targets handler) {causes : Text.Causes}
      (he : handler.2.start env.calls r.number action targets m.snapshot = .error causes)
      (reason : String) :
      Opens m env r [.start handler.1 r.number action targets m.snapshot]
        ({ r with isDispatched := true }.failed reason)
  | start {action : Action} {targets : List Entity} {handler : HandlerName × Handler}
      {answer : Unit} (aim : Aims m env r action targets handler) {call : Call}
      (hc : call = .start handler.1 r.number action targets m.snapshot)
      (he : handler.2.start env.calls r.number action targets m.snapshot = .ok answer) :
      Opens m env r [call, .poll handler.1 r.number m.snapshot]
        (r.started (handler.2.isComplete (env.calls ++ [call]) r.number m.snapshot))
  /-- There is nothing to ask a handler about. -/
  | idle (hs : r.state = .awaitingCompletion) (hi : r.isActionComplete ∨ r.handler? env = none) :
      Opens m env r [] r
  | poll {handler : HandlerName × Handler} (hs : r.state = .awaitingCompletion)
      (hn : ¬ r.isActionComplete) (hh : r.handler? env = some handler) :
      Opens m env r [.poll handler.1 r.number m.snapshot]
        { r with isActionComplete := handler.2.isComplete env.calls r.number m.snapshot }

/-- The **ways in which criteria can be judged**. A segment whose tick has opened in a state without
criteria rests. -/
inductive Judges (r : SegmentRun) : SegmentRun → Prop
  | rest {r' : SegmentRun} (h : Noted r r') : Judges r r'
  | hold {r' : SegmentRun} (phase : Phase) (hs : r.state = phase.state) (h : Noted r r') :
      Judges r (r'.entered phase.next)
  | fail (hs : r.state.isWaiting) (reason : String) : Judges r (r.failed reason)

/-- An action is **under way** if it was started and is not complete. -/
def isUnderWay (r : SegmentRun) : Bool := r.isDispatched && !r.isActionComplete

/-- The calls that give up an action that is under way. -/
def givingUp (r : SegmentRun) (env : Environment) : List Call :=
  if r.isUnderWay then (r.handler? env).toList.map fun handler => .abort handler.1 r.number else []

/-- What gives an action up is a call to its handler. -/
theorem mem_givingUp {c : Call} (hc : c ∈ r.givingUp env) :
    ∃ handler, r.handler? env = some handler ∧ c = .abort handler.1 r.number := by
  unfold givingUp at hc
  split at hc
  · obtain ⟨handler, hh, rfl⟩ := List.mem_map.mp hc
    exact ⟨handler, Option.mem_toList.mp hh, rfl⟩
  · cases hc

/-- The **ways in which a tick can close**. -/
inductive Closes (env : Environment) (r : SegmentRun) : List Call → SegmentRun → Prop
  | inTime (h : r.state.isTerminal ∨ ¬ r.isTimeUp) : Closes env r [] r
  | late (hs : ¬ r.state.isTerminal) (ht : r.isTimeUp) :
      Closes env r (r.givingUp env) ({ r with lastUnmet := none }.timedOut r.timeoutReason)

/-! ### What a tick does between opening and closing -/

/-- What evaluating the criteria of a phase comes to, and what is noted on the way. -/
def verdict (phase : Phase) (m : Moment) (r : SegmentRun) (env : Environment) :
    Except EvaluationError CriteriaStatus × Notes :=
  Criteria.evaluateAll (r.view m env) (r.key phase) (r.criteria phase) (r.join phase)

/-- Why a segment fails whose criteria cannot be evaluated. -/
def unevaluable (e : EvaluationError) : String := s!"criteria evaluation failed: {e.message}"

/-- The environment after the vision requests of a phase were sent. -/
def asking (phase : Phase) (m : Moment) (r : SegmentRun) (env : Environment) : Environment :=
  { env with vision := (env.vision.prepare (r.key phase) (r.criteria phase) m.snapshot).1 }

/-- The environment after the vision requests of a phase were abandoned. -/
def letting (phase : Phase) (r : SegmentRun) (env : Environment) : Environment :=
  { env with vision := env.vision.release (r.key phase) }

/-- The **ways in which a tick can look at criteria**, with the environment that is left. It asks
for vision first, whatever comes of it. A segment that has just begun may be too new for that, and
one whose tick has opened in a state without criteria rests. -/
inductive Inspects (m : Moment) (env : Environment) (r : SegmentRun) :
    SegmentRun → Environment → Prop
  | rest (hs : ∀ phase : Phase, r.state ≠ phase.state) : Inspects m env r r env
  | tooNew (hs : r.state = .awaitingEntry) (hv : Version.current < r.segment.effectiveVersion)
      (reason : String) : Inspects m env r (r.failed reason) env
  | fail (phase : Phase) (hs : r.state = phase.state) {e : EvaluationError}
      (he : (r.verdict phase m (r.asking phase m env)).1 = .error e) :
      Inspects m env r (r.failed (unevaluable e)) (r.asking phase m env)
  | hold (phase : Phase) (hs : r.state = phase.state) {status : CriteriaStatus}
      (he : (r.verdict phase m (r.asking phase m env)).1 = .ok status) (hh : status.isSatisfied) :
      Inspects m env r
        ((r.noted status (r.verdict phase m (r.asking phase m env)).2.latched).entered phase.next)
        (r.letting phase (r.asking phase m env))
  | wait (phase : Phase) (hs : r.state = phase.state) {status : CriteriaStatus}
      (he : (r.verdict phase m (r.asking phase m env)).1 = .ok status) (hh : ¬ status.isSatisfied) :
      Inspects m env r (r.noted status (r.verdict phase m (r.asking phase m env)).2.latched)
        (r.asking phase m env)

/-- Looking at criteria judges the run and makes no calls. -/
theorem Inspects.judges (h : Inspects m env r r' env') : Judges r r' ∧ env.Made [] env' := by
  have noted : ∀ status latched, Noted r (r.noted status latched) := fun _ _ => .intro _ _ _
  cases h with
  | rest hs => exact ⟨.rest (.refl r), .refl env⟩
  | tooNew hs hv reason => exact ⟨.fail (by rw [hs]; rfl) reason, .refl env⟩
  | fail phase hs => exact ⟨.fail (hs ▸ phase.state_isWaiting) _, .none rfl rfl⟩
  | hold phase hs => exact ⟨.hold phase hs (noted _ _), .none rfl rfl⟩
  | wait phase hs => exact ⟨.rest (noted _ _), .none rfl rfl⟩

/-! ### Each part goes one of its ways -/

/-- Waiting for the criteria of a phase looks at them in one of the ways. -/
theorem await_inspects (phase : Phase) (m : Moment) (env : Environment)
    (hs : r.state = phase.state) :
    Inspects m env r (await phase m r env).subject (await phase m r env).env := by
  change Inspects m env r (judge phase m r (r.asking phase m env)).subject
    (judge phase m r (r.asking phase m env)).env
  unfold judge
  dsimp only
  split
  · next e he => exact .fail phase hs he
  next status he =>
  split
  · next hh => exact .hold phase hs he hh
  · next hh => exact .wait phase hs he hh

/-- A segment that has just begun looks at its entry criteria, unless it is too new. -/
theorem begin_inspects (m : Moment) (env : Environment) :
    Inspects m env (r.entered .awaitingEntry) (begin m r env).subject (begin m r env).env := by
  have hs : (r.entered .awaitingEntry).state = Phase.entry.state := rfl
  unfold begin
  dsimp only [Turn.subject_andThen, Turn.env_andThen]
  split
  · next hv => exact .tooNew hs hv _
  · exact await_inspects .entry m env hs

section Start

variable {action : Action} {targets : List Entity} {handler : HandlerName × Handler}

/-- What an accepted start leaves behind. -/
theorem start_ok {answer : Unit}
    (he : handler.2.start env.calls r.number action targets m.snapshot = .ok answer) :
    (start handler action targets m r env).subject = { r with isDispatched := true } ∧
      (start handler action targets m r env).env =
        env.called (.start handler.1 r.number action targets m.snapshot) := by
  unfold start
  dsimp only
  rw [he]
  exact ⟨rfl, rfl⟩

/-- What a refused start leaves behind. -/
theorem start_error {causes : Text.Causes}
    (he : handler.2.start env.calls r.number action targets m.snapshot = .error causes) :
    (∃ reason, (start handler action targets m r env).subject =
        { r with isDispatched := true }.failed reason) ∧
      (start handler action targets m r env).env =
        env.called (.start handler.1 r.number action targets m.snapshot) := by
  unfold start
  dsimp only
  rw [he]
  exact ⟨⟨_, rfl⟩, rfl⟩

end Start

/-- An attempt to start the action either keeps the segment where it is, or ends it, or lets it go
on to wait for completion. -/
theorem dispatch_opens (m : Moment) (env : Environment) (hs : r.state = .executing) :
    ∃ cs, (dispatch m r env).env = env.calling cs ∧
      let r' := (dispatch m r env).subject
      ((r'.isDispatched && !r'.state.isTerminal) = false ∧
        (∀ phase : Phase, r'.state ≠ phase.state) ∧ Opens m env r cs r' ∨
        (r'.isDispatched && !r'.state.isTerminal) = true ∧
          Opens m env r cs (r'.entered .awaitingCompletion)) := by
  have hw : r.state.isTerminal = false := by rw [hs]; rfl
  have hphase : ∀ phase : Phase, r.state ≠ phase.state := by
    rw [hs]
    rintro (_ | _) <;> decide
  have hfailed : ∀ phase : Phase, SegmentState.failed ≠ phase.state := by
    rintro (_ | _) <;> decide
  have hnone : env = env.calling [] := env.calling_nil.symm
  unfold dispatch
  -- in the order of `dispatch`: the action, its version, its targets, its handler
  split
  · next ha => exact ⟨[], hnone, .inr ⟨by simp [hw], .pass hs ha⟩⟩
  next action ha =>
  split
  · exact ⟨[], hnone, .inl ⟨Bool.and_false _, hfailed, .unable hs _⟩⟩
  split
  · next ht =>
    -- nothing was started yet in any run, but that is the history's to know
    by_cases hd : r.isDispatched
    · exact ⟨[], hnone, .inr ⟨by simp [hd, hw], .astray hs hd _⟩⟩
    · exact ⟨[], hnone, .inl ⟨by simp [hd], hphase, .missing hs ha ht hd _⟩⟩
  next targets ht =>
  dsimp only
  split
  · exact ⟨[], hnone, .inl ⟨Bool.and_false _, hfailed, .unable hs _⟩⟩
  next handler hh =>
  have aim : Aims m env r action targets handler := ⟨hs, ht, hh, ha⟩
  dsimp only [Turn.subject_andThen, Turn.env_andThen]
  -- what the handler says to being started decides whether it is asked right away
  rcases he : handler.2.start env.calls r.number action targets m.snapshot with causes | answer
  · obtain ⟨⟨reason, hsub⟩, henv⟩ := start_error he
    simp only [hsub, henv, isTerminal_failed, if_true]
    exact ⟨_, env.called_eq _, .inl ⟨Bool.and_false _, hfailed, .refuse aim he reason⟩⟩
  · obtain ⟨hsub, henv⟩ := start_ok he
    simp only [hsub, henv, hw, Bool.false_eq_true, if_false]
    refine ⟨_, ?_, .inr ⟨by simp [ask, hw], .start aim rfl he⟩⟩
    exact env.calling_calling [_] [_]

/-- Asking about an action opens the tick in one of the ways. -/
theorem poll_opens (m : Moment) (env : Environment) (hs : r.state = .awaitingCompletion) :
    ∃ cs, (poll m r env).env = env.calling cs ∧ Opens m env r cs (poll m r env).subject := by
  have hnone : env = env.calling [] := env.calling_nil.symm
  unfold poll
  split
  · next hc => exact ⟨[], hnone, .idle hs (.inl hc)⟩
  next hc =>
  split
  · next hh => exact ⟨[], hnone, .idle hs (.inr hh)⟩
  next handler hh =>
  dsimp only [Turn.subject_andThen, Turn.env_andThen]
  -- the message about a finished action is all that the two cases differ in
  have ho : Opens m env r [.poll handler.1 r.number m.snapshot] _ := .poll hs hc hh
  split <;> exact ⟨_, env.called_eq _, ho⟩

/-- Opening a tick does not lead away from waiting for completion. -/
theorem Opens.awaitingCompletion {cs : List Call} (ho : Opens m env r cs r')
    (hs : r.state = .awaitingCompletion) : r'.state = .awaitingCompletion := by
  cases ho with
  | idle => exact hs
  | poll => exact hs
  | refuse aim | start aim => exact absurd (aim.state.symm.trans hs) (by decide)
  | begin h | wait h | pass h | missing h | astray h | unable h =>
    exact absurd (h.symm.trans hs) (by decide)

/-! ### What is looked at -/

/-- How a counted tick comes to the end criteria, if it does. -/
def completing? (m : Moment) (r : SegmentRun) (env : Environment) : Option (Turn SegmentRun) :=
  match r.state with
  | .executing =>
      let t := dispatch m r env
      if t.subject.isDispatched && !t.subject.state.isTerminal then
        some (t.andThen (enter .awaitingCompletion))
      else none
  | .awaitingCompletion => some (poll m r env)
  | .pending | .awaitingEntry | .completed | .timedOut | .failed | .skipped => none

/-- What the criteria of a phase are evaluated against: vision was asked before. -/
def sighting (phase : Phase) (m : Moment) (r : SegmentRun) (env : Environment) : View :=
  r.view m (r.asking phase m env)

/-- **What a tick evaluates the end criteria against**, if it does. -/
def look? (m : Moment) (r : SegmentRun) (env : Environment) : Option View :=
  (completing? m (r.counted m.delta) env).map fun t => sighting .completion m t.subject t.env

/-- What comes before the look at the time. The end criteria are looked at just if the tick has
opened in the state in which a segment waits for them. -/
theorem advance_looks (m : Moment) (env : Environment) (h : ¬ r.state.isTerminal) :
    ∃ cs r₁, Opens m env r cs r₁ ∧
      Inspects m (env.calling cs) r₁ (advance m r env).subject (advance m r env).env ∧
        (completing? m r env).map (fun t => sighting .completion m t.subject t.env) =
          if r₁.state = .awaitingCompletion then some (sighting .completion m r₁ (env.calling cs))
          else none := by
  unfold advance
  -- in the order of the states
  split
  · next hs =>
    have hl : completing? m r env = none := by unfold completing?; rw [hs]
    refine ⟨[], _, .begin hs, ?_⟩
    rw [env.calling_nil, hl]
    exact ⟨begin_inspects m env, rfl⟩
  · next hs =>
    have hl : completing? m r env = none := by unfold completing?; rw [hs]
    refine ⟨[], r, .wait hs, ?_⟩
    rw [env.calling_nil, hl, if_neg (by rw [hs]; decide)]
    exact ⟨await_inspects .entry m env hs, rfl⟩
  · next hs =>
    have hl : completing? m r env =
        if (dispatch m r env).subject.isDispatched && !(dispatch m r env).subject.state.isTerminal
        then some ((dispatch m r env).andThen (enter .awaitingCompletion)) else none := by
      unfold completing?
      rw [hs]
    -- only a segment that goes on has criteria to be judged
    obtain ⟨cs, henv, ho⟩ := dispatch_opens m env hs
    dsimp only [Turn.subject_andThen, Turn.env_andThen]
    obtain ⟨hgo, hphase, ho⟩ | ⟨hgo, ho⟩ := ho
    · have hno : ¬ ((dispatch m r env).subject.isDispatched &&
          !(dispatch m r env).subject.state.isTerminal) = true := by
        rw [hgo]
        exact Bool.false_ne_true
      rw [hl, if_neg hno, if_neg hno, henv]
      exact ⟨cs, _, ho, .rest hphase, (if_neg (hphase .completion)).symm⟩
    · rw [hl, if_pos hgo, if_pos hgo, henv]
      have hi := await_inspects .completion m (env.calling cs)
        (show ((dispatch m r env).subject.entered .awaitingCompletion).state = _ from rfl)
      refine ⟨cs, _, ho, hi, ?_⟩
      rw [Option.map_some, Turn.env_andThen, henv]
      rfl
  · next hs =>
    have hl : completing? m r env = some (poll m r env) := by unfold completing?; rw [hs]
    obtain ⟨cs, henv, ho⟩ := poll_opens m env hs
    have hs' := ho.awaitingCompletion hs
    refine ⟨cs, _, ho, ?_⟩
    dsimp only [Turn.subject_andThen, Turn.env_andThen]
    rw [hl, Option.map_some, henv, if_pos hs']
    exact ⟨await_inspects .completion m (env.calling cs) hs', rfl⟩
  all_goals next hs => exact absurd (hs ▸ rfl) h

/-- Giving an action up leaves the run as it is and makes the calls that `givingUp` lists. -/
theorem abortAction_calling (r : SegmentRun) (env : Environment) :
    (abortAction r env).subject = r ∧ (abortAction r env).env = env.calling (r.givingUp env) := by
  have hu : (!r.isDispatched || r.isActionComplete) = !r.isUnderWay := by
    rw [isUnderWay, Bool.not_and, Bool.not_not]
  have hnone : env = env.calling [] := env.calling_nil.symm
  unfold abortAction givingUp
  rw [hu]
  cases r.isUnderWay with
  | false => exact ⟨rfl, hnone⟩
  | true =>
    rw [if_neg (by decide), if_pos rfl]
    split
    · -- without a handler there is nobody to tell
      next hh => rw [hh]; exact ⟨rfl, hnone⟩
    · next handler hh => rw [hh]; exact ⟨rfl, env.called_eq _⟩

/-- Giving an action up, as far as calls are concerned. -/
theorem abortAction_made (r : SegmentRun) (env : Environment) :
    (abortAction r env).subject = r ∧ env.Made (r.givingUp env) (abortAction r env).env := by
  obtain ⟨hsub, henv⟩ := abortAction_calling r env
  rw [henv]
  exact ⟨hsub, .calling env _⟩

/-- The look at the time is the last thing of a tick that makes calls. -/
theorem checkTimeout_closes (r : SegmentRun) (env : Environment) :
    ∃ cs, Closes env r cs (checkTimeout r env).subject ∧
      (checkTimeout r env).env = env.calling cs := by
  unfold checkTimeout
  split
  · next hup =>
    rw [Bool.and_eq_true, Bool.not_eq_true'] at hup
    obtain ⟨hsub, henv⟩ := abortAction_calling r env
    have hs : ¬ r.state.isTerminal := by rw [hup.1]; exact Bool.false_ne_true
    refine ⟨_, ?_, henv⟩
    have hc : Closes env r (r.givingUp env) _ := .late hs hup.2
    dsimp only [Turn.subject_andThen, Turn.subject_map, Turn.subject_saying, Turn.env_saying]
    rw [hsub]
    exact hc
  · next hup =>
    refine ⟨[], .inTime ?_, env.calling_nil.symm⟩
    -- one of the two reasons to do nothing holds
    by_cases hs : r.state.isTerminal
    · exact .inl hs
    · exact .inr fun hu => hup (by simp [hs, hu])

/-- Abandoning requests leaves the run as it is and makes no calls. -/
theorem releaseIfOver_made (r : SegmentRun) (env : Environment) :
    (releaseIfOver r env).subject = r ∧ env.Made [] (releaseIfOver r env).env := by
  unfold releaseIfOver
  split
  · exact ⟨rfl, .none rfl rfl⟩
  · exact ⟨rfl, .refl env⟩

/-- **What a tick consists of**, with every environment on the way. The tick of a segment that has
not ended counts, opens, looks at criteria, closes, and abandons the vision requests of a segment
that is over by then. The end criteria are looked at just if it has opened where they are waited
for. -/
theorem tick_looks (m : Moment) (env : Environment) (h : ¬ r.state.isTerminal) :
    ∃ cs ds env₂ r₁ r₂,
      Opens m env (r.counted m.delta) cs r₁ ∧ Inspects m (env.calling cs) r₁ r₂ env₂ ∧
        Closes env₂ r₂ ds (r.tick m env).subject ∧
          (r.tick m env).env = (releaseIfOver (r.tick m env).subject (env₂.calling ds)).env ∧
            look? m r env =
              if r₁.state = .awaitingCompletion then
                some (sighting .completion m r₁ (env.calling cs))
              else none := by
  -- the tick is taken apart into what advances it and what closes it
  obtain ⟨cs, r₁, ho, hi, hl⟩ := advance_looks (r := r.counted m.delta) m env h
  obtain ⟨ds, hc, henv⟩ := checkTimeout_closes (advance m (r.counted m.delta) env).subject
    (advance m (r.counted m.delta) env).env
  have hsub : (r.tick m env).subject = (checkTimeout (advance m (r.counted m.delta) env).subject
      (advance m (r.counted m.delta) env).env).subject := by
    unfold tick
    rw [if_neg h]
    exact (releaseIfOver_made _ _).1
  refine ⟨cs, ds, _, r₁, _, ho, hi, hsub ▸ hc, ?_, hl⟩
  rw [hsub, ← henv]
  unfold tick
  rw [if_neg h]
  rfl

/-- What a tick consists of, whatever it looks at. -/
theorem tick_stages (m : Moment) (env : Environment) (h : ¬ r.state.isTerminal) :
    ∃ cs ds env₂ r₁ r₂,
      Opens m env (r.counted m.delta) cs r₁ ∧ Inspects m (env.calling cs) r₁ r₂ env₂ ∧
        Closes env₂ r₂ ds (r.tick m env).subject ∧
          (r.tick m env).env = (releaseIfOver (r.tick m env).subject (env₂.calling ds)).env := by
  obtain ⟨cs, ds, env₂, r₁, r₂, ho, hi, hc, henv, -⟩ := tick_looks m env h
  exact ⟨cs, ds, env₂, r₁, r₂, ho, hi, hc, henv⟩

/-- **What a tick consists of**, as far as calls are concerned. -/
theorem tick_parts (m : Moment) (env : Environment) (h : ¬ r.state.isTerminal) :
    ∃ cs ds env₁ r₁ r₂,
      Opens m env (r.counted m.delta) cs r₁ ∧ env.Made cs env₁ ∧ Judges r₁ r₂ ∧
        Closes env₁ r₂ ds (r.tick m env).subject ∧ env₁.Made ds (r.tick m env).env := by
  obtain ⟨cs, ds, env₂, r₁, r₂, ho, hi, hc, henv⟩ := tick_stages m env h
  obtain ⟨hj, hm⟩ := hi.judges
  refine ⟨cs, ds, env₂, r₁, r₂, ho, (Environment.Made.calling env cs).trans_none hm, hj, hc, ?_⟩
  rw [henv]
  exact (Environment.Made.calling env₂ ds).trans_none (releaseIfOver_made _ _).2

end SegmentRun

end Playtest
