import Mathlib.Data.List.Induction
import Playtest.Proofs.Clock
import Playtest.Proofs.Segment.Overlooked

/-!
# The time limit of a segment

A tick looks at the time after everything else. So there are two things to know about a time limit:

* **when**: the time that is looked at is that of all ticks but the first
  (`SegmentRun.elapsed_after`), and it is one that can be compared with any limit
  (`Clock.lt_of_not_le`),
* **what for**: up to then the tick has overlooked the limit, and has done what it would have done
  without one (`SegmentRun.tick_cases`).

`SegmentRun.times_out_on_time` puts both together. A tick times a segment out just if the time is up
and the same tick, without a limit, would not have ended the segment. No tick leaves it waiting with
its time up.
-/

namespace Playtest

/-- What a tick has ended, and not because of the time, is complete or has failed. -/
theorem SegmentState.isTerminal_iff_of_isBegun {s : SegmentState} (hb : s.isBegun)
    (ht : s ≠ .timedOut) : s.isTerminal ↔ ¬ (s ≠ .completed ∧ s ≠ .failed) := by
  cases s <;> simp_all [isBegun, isTerminal]

namespace SegmentRun

variable {r : SegmentRun} {m : Moment} {env : Environment}

/-! ### Without a limit -/

/-- The run **without a time limit**. -/
def unlimited (r : SegmentRun) : SegmentRun := r.disguised id fun _ => 0.0

theorem isTimeUp_unlimited (r : SegmentRun) : r.unlimited.isTimeUp = false := by
  have hnone : (0.0 < (0.0 : Float)) = False := eq_false (by decide)
  show (decide (0.0 < (0.0 : Float)) && decide (0.0 ≤ r.elapsed)) = false
  rw [decide_eq_false (of_eq_false hnone), Bool.false_and]

/-- The time is up if there is a limit and the time has come to it. -/
theorem isTimeUp_iff (r : SegmentRun) :
    r.isTimeUp ↔ 0.0 < r.segment.timeout ∧ r.segment.timeout ≤ r.elapsed := by
  show (decide (0.0 < r.segment.timeout) && decide (r.segment.timeout ≤ r.elapsed)) = true ↔ _
  rw [Bool.and_eq_true, decide_eq_true_iff, decide_eq_true_iff]

/-! ### One tick -/

/-- Opening a tick does not time a segment out. -/
theorem Opens.state_ne_timedOut {cs : List Call} {r' : SegmentRun} (h : Opens m env r cs r') :
    r'.state ≠ .timedOut := by
  have waiting : ∀ {s : SegmentState}, s.isWaiting → s ≠ .timedOut := by
    rintro s hw rfl
    exact absurd hw (by decide)
  cases h with
  | wait hs | missing hs | idle hs | poll hs => exact waiting (by rw [show _ = _ from hs]; rfl)
  | begin | pass | astray | unable | refuse | start => exact SegmentState.noConfusion

/-- Looking at criteria does not time a segment out. -/
theorem Inspects.state_ne_timedOut {env' : Environment} {r' : SegmentRun}
    (h : Inspects m env r r' env') (hs : r.state ≠ .timedOut) : r'.state ≠ .timedOut := by
  cases h with
  | rest => exact hs
  | tooNew | fail => exact SegmentState.noConfusion
  | hold phase => cases phase <;> exact SegmentState.noConfusion
  | wait => exact hs

/-- What comes **before the look at the time**: it goes on with the same segment at the same time,
and times nothing out. -/
theorem advance_course (h : ¬ r.state.isTerminal) (m : Moment) (env : Environment) :
    Onward r (advance m r env).subject ∧ (advance m r env).subject.state ≠ .timedOut := by
  obtain ⟨cs, r₁, ho, hi, -⟩ := advance_looks m env h
  exact ⟨ho.onward.1.trans hi.judges.1.onward, hi.state_ne_timedOut ho.state_ne_timedOut⟩

/-- What a tick makes of a run is what the look at the time makes of the rest of it. -/
theorem subject_tick (h : ¬ r.state.isTerminal) (m : Moment) (env : Environment) :
    let t := advance m (r.counted m.delta) env
    (r.tick m env).subject = (checkTimeout t.subject t.env).subject := by
  intro t
  unfold tick
  rw [if_neg h]
  exact (releaseIfOver_made _ _).1

/-- Without a limit, nothing comes after the rest of the tick. -/
theorem tick_unlimited (h : ¬ r.state.isTerminal) (m : Moment) (env : Environment) :
    (r.unlimited.tick m env).subject = (advance m (r.counted m.delta) env).subject.unlimited := by
  have hcounted : r.unlimited.counted m.delta = (r.counted m.delta).disguised id fun _ => 0.0 := rfl
  rw [subject_tick (r := r.unlimited) h, hcounted, overlooks_advance m (r.counted m.delta) env]
  generalize advance m (r.counted m.delta) env = t
  -- what the rest of the tick comes to does not matter, since its run has no limit either
  show (checkTimeout t.subject.unlimited t.env).subject = _
  unfold checkTimeout
  rw [isTimeUp_unlimited, Bool.and_false]
  rfl

/-- The look at the time ends a run in time, or leaves it alone. -/
theorem Closes.cases {cs : List Call} {r' : SegmentRun} (h : Closes env r cs r') :
    r' = r ∧ (r.state.isTerminal ∨ ¬ r.isTimeUp) ∨
      r'.state = .timedOut ∧ r'.elapsed = r.elapsed ∧ ¬ r.state.isTerminal ∧ r.isTimeUp := by
  cases h with
  | inTime htime => exact .inl ⟨rfl, htime⟩
  | late hs ht => exact .inr ⟨rfl, rfl, hs, ht⟩

/-- **Two things can come of a tick**: that what it comes to without a limit, or a segment that is
timed out. The time decides, unless the segment has ended without it. -/
theorem tick_cases (h : ¬ r.state.isTerminal) (m : Moment) (env : Environment)
    {r' free : SegmentRun} (hr : r' = (r.tick m env).subject)
    (hf : free = (r.unlimited.tick m env).subject) :
    free.state ≠ .timedOut ∧
      (free = r'.unlimited ∧
          (free.state.isTerminal ∨ ¬ (0.0 < r.segment.timeout ∧ r.segment.timeout ≤ r'.elapsed)) ∨
        r'.state = .timedOut ∧ ¬ free.state.isTerminal ∧ 0.0 < r.segment.timeout ∧
          r.segment.timeout ≤ r'.elapsed) := by
  obtain ⟨hon, htimely⟩ := advance_course (r := r.counted m.delta) h m env
  obtain ⟨cs, hc, -⟩ := checkTimeout_closes (advance m (r.counted m.delta) env).subject
    (advance m (r.counted m.delta) env).env
  rw [← subject_tick h m env, ← hr] at hc
  rw [tick_unlimited h m env] at hf
  -- from here on only the segment counts that the rest of the tick has come to
  generalize (advance m (r.counted m.delta) env).subject = a at hon htimely hf hc
  subst hf
  have hlimit : a.segment = r.segment := by injection hon.origin
  have hlate : a.isTimeUp ↔ 0.0 < r.segment.timeout ∧ r.segment.timeout ≤ a.elapsed :=
    hlimit ▸ a.isTimeUp_iff
  refine ⟨htimely, ?_⟩
  rcases hc.cases with ⟨rfl, htime⟩ | ⟨hstate, helapsed, hs, htime⟩
  · rw [hlate] at htime
    exact .inl ⟨rfl, htime⟩
  · rw [hlate, ← helapsed] at htime
    exact .inr ⟨hstate, hs, htime⟩

/-! ### Ticks one after another -/

/-- The run after some ticks, each at a moment and in an environment of its own. -/
def after (ticks : List (Moment × Environment)) (r : SegmentRun) : SegmentRun :=
  ticks.foldl (fun r t => (r.tick t.1 t.2).subject) r

/-- One tick more comes behind the others. -/
theorem after_concat (ticks : List (Moment × Environment)) (t : Moment × Environment)
    (r : SegmentRun) :
    r.after (ticks ++ [t]) = ((r.after ticks).tick t.1 t.2).subject := List.foldl_append

/-- The time from the first one of some ticks to the last one, in which no time goes back. -/
def timeOf (ticks : List (Moment × Environment)) : Float :=
  (ticks.tail.map fun t => forward t.1.delta).foldl (· + ·) 0.0

/-- One tick more adds its time, unless it is the first one. -/
theorem timeOf_concat (ticks : List (Moment × Environment)) (t : Moment × Environment) :
    timeOf (ticks ++ [t]) = if ticks.length = 0 then 0.0 else timeOf ticks + forward t.1.delta := by
  cases ticks with
  | nil => rfl
  | cons first rest =>
    rw [List.length_cons, if_neg (Nat.succ_ne_zero _)]
    show ((rest ++ [t]).map _).foldl (· + ·) 0.0 = _
    rw [List.map_append, List.foldl_append]
    rfl

/-- No time is below zero. -/
theorem zero_le_timeOf (ticks : List (Moment × Environment)) : 0.0 ≤ timeOf ticks := by
  induction ticks using List.reverseRecOn with
  | nil => decide
  | append_singleton ticks t ih =>
    rw [timeOf_concat]
    split
    · decide
    · exact Clock.zero_le_add ih (Clock.zero_le_forward _)

variable {s : Segment} {list : String} {number : Nat} {isRequired : Bool}
  {ticks : List (Moment × Environment)}

/-- Ticks do not change the segment. -/
theorem segment_after (ticks : List (Moment × Environment)) :
    ((SegmentRun.of s list number isRequired).after ticks).segment = s := by
  have horigin : ((SegmentRun.of s list number isRequired).after ticks).origin =
      .of s list number isRequired := by
    induction ticks using List.reverseRecOn with
    | nil => rfl
    | append_singleton ticks t ih => rw [after_concat, origin_tick, ih]
  injection horigin

/-- What had not ended after some ticks and one more, had not ended before. -/
theorem not_isTerminal_before {t : Moment × Environment}
    (h : ¬ (r.after (ticks ++ [t])).state.isTerminal) :
    ¬ (r.after ticks).state.isTerminal := by
  intro hover
  rw [after_concat, tick_of_isTerminal _ _ hover] at h
  exact h hover

/-- The tick after some that were all counted is counted, too. -/
theorem elapsed_tick (h : ¬ r.state.isTerminal) (hticks : r.ticks = ticks.length)
    (helapsed : r.elapsed = timeOf ticks) (m : Moment) (env : Environment) :
    (r.tick m env).subject.elapsed = timeOf (ticks ++ [(m, env)]) := by
  rw [(tick_course m env h).1.elapsed, timeOf_concat]
  show (if _ = 0 then _ else _ + _) = _
  rw [hticks, helapsed]
  cases ticks <;> rfl

/-- A run that has not ended has **counted every tick**, and the time of all but the first. -/
theorem elapsed_after
    (h : ¬ ((SegmentRun.of s list number isRequired).after ticks).state.isTerminal) :
    ((SegmentRun.of s list number isRequired).after ticks).ticks = ticks.length ∧
      ((SegmentRun.of s list number isRequired).after ticks).elapsed = timeOf ticks := by
  -- on the ticks, from the last one back
  induction ticks using List.reverseRecOn with
  | nil => exact ⟨rfl, rfl⟩
  | append_singleton ticks t ih =>
    have hbefore := not_isTerminal_before h
    obtain ⟨hticks, helapsed⟩ := ih hbefore
    rw [after_concat]
    constructor
    · rw [ticks_tick t.1 t.2 hbefore, hticks, List.length_append]
      rfl
    · exact elapsed_tick hbefore hticks helapsed t.1 t.2

/-- Up to the end of a run, its limit has **made no difference**. -/
theorem unlimited_after
    (h : ¬ ((SegmentRun.of s list number isRequired).after ticks).state.isTerminal) :
    ((SegmentRun.of s list number isRequired).after ticks).unlimited =
      (SegmentRun.of { s with timeout := 0.0 } list number isRequired).after ticks := by
  -- on the ticks, from the last one back; each comes to the same without a limit, unless it ends
  -- the run
  induction ticks using List.reverseRecOn with
  | nil => rfl
  | append_singleton ticks t ih =>
    have hbefore := not_isTerminal_before h
    rw [after_concat] at h ⊢
    rw [after_concat, ← ih hbefore]
    obtain ⟨-, ⟨hsame, -⟩ | ⟨hstate, -⟩⟩ := tick_cases hbefore t.1 t.2 rfl rfl
    · exact hsame.symm
    · rw [hstate] at h
      exact absurd rfl h

/-- **A segment times out on time.** Consider a segment that has not ended after some ticks,
whatever the moments and the environments were, and one tick more. Then

* the time that has passed is that of all ticks but the first,
* the limit has made no difference before: without it, the run would be the same,
* if the segment has not ended by now, and has a limit, it is still below it,
* the tick has timed the segment out just if there is a limit, the time has come to it, and the tick
  would not have completed or failed the segment without the limit. So it does not if there is no
  limit. -/
theorem times_out_on_time (s : Segment) (list : String) (number : Nat) (isRequired : Bool)
    (ticks : List (Moment × Environment))
    (h : ¬ ((SegmentRun.of s list number isRequired).after ticks).state.isTerminal) (m : Moment)
    (env : Environment) :
    let before := (SegmentRun.of s list number isRequired).after ticks
    let now := (before.tick m env).subject
    let free := (before.unlimited.tick m env).subject
    now.elapsed = timeOf (ticks ++ [(m, env)]) ∧
      before.unlimited =
        (SegmentRun.of { s with timeout := 0.0 } list number isRequired).after ticks ∧
      (¬ now.state.isTerminal → 0.0 < s.timeout → now.elapsed < s.timeout) ∧
      (now.state = .timedOut ↔
        0.0 < s.timeout ∧ s.timeout ≤ now.elapsed ∧ free.state ≠ .completed ∧
          free.state ≠ .failed) ∧
      (¬ 0.0 < s.timeout → now.state ≠ .timedOut) := by
  intro before now free
  have hlimit : before.segment = s := segment_after ticks
  have helapsed : now.elapsed = timeOf (ticks ++ [(m, env)]) := by
    obtain ⟨hticks, helapsed⟩ := elapsed_after h
    exact elapsed_tick h hticks helapsed m env
  obtain ⟨hintime, hcases⟩ := tick_cases h m env (rfl : now = _) (rfl : free = _)
  rw [hlimit] at hcases
  have hended : free.state.isTerminal ↔ ¬ (free.state ≠ .completed ∧ free.state ≠ .failed) :=
    SegmentState.isTerminal_iff_of_isBegun (tick_course (r := before.unlimited) m env h).2 hintime
  -- without the limit it would have ended, or it is the time that decides
  have hexact : now.state = .timedOut ↔
      0.0 < s.timeout ∧ s.timeout ≤ now.elapsed ∧ free.state ≠ .completed ∧
        free.state ≠ .failed := by
    rcases hcases with ⟨hsame, htime⟩ | ⟨hout, hgoing, hlimited, hlate⟩
    · constructor
      · intro hout
        rw [hsame] at hintime
        exact absurd hout hintime
      · rintro ⟨hlimited, hlate, hgoing⟩
        rcases htime with hover | htime
        · exact absurd hgoing (hended.mp hover)
        · exact absurd ⟨hlimited, hlate⟩ htime
    · rw [hended, not_not] at hgoing
      exact ⟨fun _ => ⟨hlimited, hlate, hgoing⟩, fun _ => hout⟩
  refine ⟨helapsed, unlimited_after h, ?_, hexact, ?_⟩
  · intro hgoing hlimited
    -- a segment that goes on is one that the tick has left as it is without a limit
    have hearly : ¬ s.timeout ≤ now.elapsed := by
      intro hlate
      rcases hcases with ⟨hsame, hover | htime⟩ | ⟨hout, -⟩
      · rw [hsame] at hover
        exact hgoing hover
      · exact htime ⟨hlimited, hlate⟩
      · rw [hout] at hgoing
        exact hgoing rfl
    exact Clock.lt_of_not_le (helapsed ▸ zero_le_timeOf _) (Clock.le_of_lt hlimited) hearly
  · intro hnone hout
    exact hnone (hexact.mp hout).1

/-- A lamp that is waited for, for a second and a half. -/
def lamp : Segment :=
  { Segment.ofName "Lamp" with
    endCriteria := [.of (.path false ⟨"Lamp", .nonZero, 0, 0, 0⟩)]
    timeout := 1.5 }

/-- What passes before the first tick of a lamp that never comes does not count. It is given up on
the fourth tick. -/
theorem lamp_times_out :
    let moment (delta : Float) : Moment := ⟨delta, .empty, none⟩
    let before := (SegmentRun.of lamp "Main" 1 true).after
      [(moment 9.0, .of .empty), (moment (-4.0), .of .empty), (moment 1.0, .of .empty)]
    ¬ before.state.isTerminal ∧ before.state = .awaitingCompletion ∧
      (before.tick (moment 0.5) (.of .empty)).subject.state = .timedOut := by
  intro moment before
  have hgoing : ¬ before.state.isTerminal := by decide +kernel
  obtain ⟨-, -, -, hexact, -⟩ := times_out_on_time lamp "Main" 1 true
    [(moment 9.0, .of .empty), (moment (-4.0), .of .empty), (moment 1.0, .of .empty)] hgoing
    (moment 0.5) (.of .empty)
  exact ⟨hgoing, by decide +kernel, hexact.mpr (by decide +kernel)⟩

end SegmentRun

end Playtest
