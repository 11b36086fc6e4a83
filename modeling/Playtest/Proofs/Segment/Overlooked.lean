import Playtest.Proofs.Segment.Course

/-!
# What is overlooked

A segment's run carries two things along that the work on it does not look at: the name of its list,
which is there to be reported, and its time limit, which is looked at once in a tick, when
everything else has been done. Give a run another list and another limit (`SegmentRun.disguised`),
and what is done with it is the same, with the environment, the messages and all
(`SegmentRun.Overlooks`). Each part of a tick overlooks them by itself, up to
`SegmentRun.overlooks_advance`, and doing one thing after another that overlooks them does so as
well (`Overlooks.andThen`). The look at the time overlooks the list only
(`SegmentRun.overlooks_tick`).
-/

namespace Playtest.SegmentRun

/-- The run **in another list and with another limit**. -/
def disguised (list : String → String) (limit : Float → Float) (r : SegmentRun) : SegmentRun :=
  { r with
    listName := list r.listName
    segment := { r.segment with timeout := limit r.segment.timeout } }

/-- What is done with a segment **overlooks** its list and its limit. -/
def Overlooks (list : String → String) (limit : Float → Float)
    (f : SegmentRun → Environment → Turn SegmentRun) : Prop :=
  ∀ r env, f (r.disguised list limit) env = (f r env).map (disguised list limit)

variable {list : String → String} {limit : Float → Float}
  {f g : SegmentRun → Environment → Turn SegmentRun}

/-- One thing after another that overlooks them does so as well. -/
theorem Overlooks.andThen (hf : Overlooks list limit f) (hg : Overlooks list limit g) :
    Overlooks list limit fun r env => (f r env).andThen g := by
  intro r env
  dsimp only
  rw [hf]
  change (f r env).andThen (fun r env => g (r.disguised list limit) env) =
    (f r env).andThen fun r env => (g r env).map (disguised list limit)
  congr 1
  funext r env
  exact hg r env

/-- What is done may hang on anything but what is overlooked. -/
theorem Overlooks.ite {p : SegmentRun → Prop} [DecidablePred p]
    (hp : ∀ r, p (r.disguised list limit) ↔ p r) (hf : Overlooks list limit f)
    (hg : Overlooks list limit g) :
    Overlooks list limit fun r env => if p r then f r env else g r env := by
  intro r env
  dsimp only
  by_cases h : p r
  · rw [if_pos h, if_pos ((hp r).mpr h)]
    exact hf r env
  · rw [if_neg h, if_neg fun hu => h ((hp r).mp hu)]
    exact hg r env

/-! ### Single steps -/

theorem overlooks_still : Overlooks list limit Turn.still := fun _ _ => rfl

theorem overlooks_enter (state : SegmentState) : Overlooks list limit (enter state) :=
  fun _ _ => rfl

theorem overlooks_fail (reason : String) : Overlooks list limit (fail reason) := fun _ _ => rfl

theorem overlooks_askVision (phase : Phase) (m : Moment) :
    Overlooks list limit (askVision phase m) := fun _ _ => rfl

theorem overlooks_judge (phase : Phase) (m : Moment) : Overlooks list limit (judge phase m) := by
  intro r env
  have hverdict : Criteria.evaluateAll (r.view m env) (r.key phase) (r.criteria phase)
      (r.join phase) = r.verdict phase m env := rfl
  -- what is evaluated, and against what, is not overlooked but the same
  have hdisguised : Criteria.evaluateAll ((r.disguised list limit).view m env)
      ((r.disguised list limit).key phase) ((r.disguised list limit).criteria phase)
      ((r.disguised list limit).join phase) = r.verdict phase m env := by
    cases phase <;> rfl
  unfold judge
  rw [hdisguised, hverdict]
  rcases r.verdict phase m env with ⟨e | status, notes⟩
  · rfl
  · dsimp only
    split <;> rfl

theorem overlooks_await (phase : Phase) (m : Moment) : Overlooks list limit (await phase m) :=
  (overlooks_askVision phase m).andThen (overlooks_judge phase m)

theorem overlooks_start (handler : HandlerName × Handler) (action : Action)
    (targets : List Scene.Entity) (m : Moment) :
    Overlooks list limit (start handler action targets m) := by
  intro r env
  have hnumber : (r.disguised list limit).number = r.number := rfl
  unfold start
  dsimp only
  rw [hnumber]
  cases handler.2.start env.calls r.number action targets m.snapshot <;> rfl

theorem overlooks_ask (handler : HandlerName × Handler) (m : Moment) :
    Overlooks list limit (ask handler m) := fun _ _ => rfl

/-! ### Parts of a tick -/

theorem overlooks_begin (m : Moment) : Overlooks list limit (begin m) :=
  (overlooks_enter .awaitingEntry).andThen
    (.ite (p := fun r => Version.current < r.segment.effectiveVersion) (fun _ => Iff.rfl)
      (fun _ _ => rfl) (overlooks_await .entry m))

theorem overlooks_dispatch (m : Moment) : Overlooks list limit (dispatch m) := by
  intro r env
  have haction : (r.disguised list limit).segment.action = r.segment.action := rfl
  unfold dispatch
  rw [haction]
  -- in the order of `dispatch`: the action, its version, its targets, its handler
  split
  · rfl
  next action _ =>
  split
  · exact overlooks_fail _ r env
  split
  · rfl
  next targets _ =>
  dsimp only
  split
  · rfl
  next handler _ =>
  have haimed : Overlooks list limit fun r env =>
      ⟨r, env, r.targetMessages action targets⟩ := fun _ _ => rfl
  have hasked : Overlooks list limit fun r env =>
      if r.state.isTerminal then .still r env else ask handler m r env :=
    .ite (fun _ => Iff.rfl) overlooks_still (overlooks_ask handler m)
  exact ((haimed.andThen (overlooks_start handler action targets m)).andThen hasked) r env

theorem overlooks_poll (m : Moment) : Overlooks list limit (poll m) := by
  refine .ite (p := fun r => r.isActionComplete) (fun _ => Iff.rfl) overlooks_still fun r env => ?_
  -- handlers are found by the action, not by the list or the limit
  have hhandler : (r.disguised list limit).handler? env = r.handler? env := rfl
  rw [hhandler]
  split
  · rfl
  next handler _ =>
  have hsaid : Overlooks list limit fun r env =>
      if r.isActionComplete then
        .saying .debug s!"Action of segment `{r.name}` complete" r env
      else .still r env :=
    .ite (fun _ => Iff.rfl) (fun _ _ => rfl) overlooks_still
  exact ((overlooks_ask handler m).andThen hsaid) r env

theorem overlooks_abortAction : Overlooks list limit abortAction := by
  refine .ite (p := fun r => (!r.isDispatched || r.isActionComplete) = true) (fun _ => Iff.rfl)
    overlooks_still fun r env => ?_
  have hhandler : (r.disguised list limit).handler? env = r.handler? env := rfl
  dsimp only
  rw [hhandler]
  split <;> rfl

/-- **All that a tick does before it looks at the time.** -/
theorem overlooks_advance (m : Moment) : Overlooks list limit (advance m) := by
  intro r env
  have hstate : (r.disguised list limit).state = r.state := rfl
  unfold advance
  rw [hstate]
  -- in the order of the states
  split
  · exact overlooks_begin m r env
  · exact overlooks_await .entry m r env
  · have hgo : Overlooks list limit fun r env =>
        if r.isDispatched && !r.state.isTerminal then
          (enter .awaitingCompletion r env).andThen (await .completion m)
        else .still r env :=
      .ite (fun _ => Iff.rfl)
        ((overlooks_enter .awaitingCompletion).andThen (overlooks_await .completion m))
        overlooks_still
    exact ((overlooks_dispatch m).andThen hgo) r env
  · exact ((overlooks_poll m).andThen (overlooks_await .completion m)) r env
  all_goals rfl

/-- The look at the time does not look at the list. -/
theorem overlooks_checkTimeout : Overlooks list id checkTimeout := by
  refine .ite (p := fun r => (!r.state.isTerminal && r.isTimeUp) = true) (fun _ => Iff.rfl)
    (fun r env => ?_) overlooks_still
  have hsaid : Overlooks list id (Turn.saying .warn s!"Segment `{r.name}` {r.timeoutReason}") :=
    fun _ _ => rfl
  have hnoted : Overlooks list id fun r' env =>
      enter .timedOut { r' with detail := some r.timeoutReason, lastUnmet := none } env :=
    fun _ _ => rfl
  exact ((hsaid.andThen overlooks_abortAction).andThen hnoted) r env

theorem overlooks_releaseIfOver : Overlooks list limit releaseIfOver :=
  .ite (p := fun r => r.state.isTerminal) (fun _ => Iff.rfl) (fun _ _ => rfl) overlooks_still

/-! ### Calls -/

/-- **A tick does not look at the list.** -/
theorem overlooks_tick (m : Moment) : Overlooks list id (tick m) := by
  refine .ite (p := fun r => r.state.isTerminal) (fun _ => Iff.rfl) overlooks_still ?_
  have hcounted : Overlooks list id fun r env => advance m (r.counted m.delta) env :=
    fun r env => overlooks_advance m (r.counted m.delta) env
  exact (hcounted.andThen overlooks_checkTimeout).andThen overlooks_releaseIfOver

/-- Skipping a segment overlooks the list and the limit. -/
theorem overlooks_skip : Overlooks list limit skip :=
  .ite (p := fun r => r.state = .pending) (fun _ => Iff.rfl) (fun _ _ => rfl) overlooks_still

/-- **Breaking a segment off does not look at the list**, nor at the limit. -/
theorem overlooks_abort (reason : String) : Overlooks list limit (abort reason) := by
  refine .ite (p := fun r => r.state.isTerminal) (fun _ => Iff.rfl) overlooks_still ?_
  refine .ite (p := fun r => r.state = .pending) (fun _ => Iff.rfl) overlooks_skip fun r env => ?_
  have hsaid : Overlooks list limit (Turn.saying .info s!"Aborting segment `{r.name}`: {reason}") :=
    fun _ _ => rfl
  have hreleased : Overlooks list limit releaseAll := fun _ _ => rfl
  have hnoted : Overlooks list limit fun r env =>
      enter .timedOut { r with detail := some reason } env :=
    fun _ _ => rfl
  exact (((hsaid.andThen overlooks_abortAction).andThen hreleased).andThen hnoted) r env

end Playtest.SegmentRun
