import Playtest.Proofs.Assignment.Course

/-!
# The time limit of an assignment

An assignment looks at its time limit before it plays a tick, and by then it only knows of the time
that had passed after the tick before. A playback counts a tick first and looks at its own limit
then. So the two limits do not mean the same: `AssignmentRun.limit_is_seen_next_tick` says when an
assignment sees that its time is up, and what comes of a tick that goes over the limit and completes
the assignment. `AssignmentRun.completes_over_limit` is an assignment to which this happens.
-/

namespace Playtest

open Playtest.Calendar

namespace PlaybackRun

variable {b : Beat} {p : PlaybackRun} {env : Environment} {result : RunResult}

/-- A result that a tick brings has the time of that tick. -/
theorem duration_of_tick (hn : p.result = none) (hr : (p.tick b env).subject.result = some result) :
    result.duration = (p.counted b.delta).elapsed := by
  -- it has run through in this tick, or was cut off in it, after the time was counted
  rcases undisturbed_or_cause b p env with hu | ⟨reason, lists, env', hc⟩
  · rw [(tick_of_undisturbed hn hu).2] at hr
    split at hr
    · cases hr
      exact (played_midway b p env).elapsed
    · rw [(played_midway b p env).result, hn] at hr
      cases hr
  · obtain ⟨p', hm, ht, -⟩ := tick_of_cause hn hc
    rw [ht] at hr
    cases hr
    exact hm.elapsed

/-- A tick that finds the time of the run to be up ends it without success. -/
theorem exists_result_of_late {timeout : Float} (hn : p.result = none) (hl : Late b p timeout)
    (env : Environment) : ∃ result, (p.tick b env).subject.result = some result ∧
      result.success = false := by
  -- a signal in the same tick would come first, and is no success either
  obtain ⟨reason, lists, env', hc⟩ : ∃ reason lists env', Cause b p env reason lists env' := by
    by_cases hs : Signalled b p
    · exact ⟨_, _, _, .signalled hs⟩
    · exact ⟨_, _, _, .late hs hl⟩
  obtain ⟨p', -, ht, -⟩ := tick_of_cause hn hc
  rw [ht]
  exact ⟨_, rfl, rfl⟩

/-- A tick that goes over a limit would be too late for a run with that limit. -/
theorem late_withTimeout {timeout : Float} (hpos : 0.0 < timeout)
    (h : timeout ≤ (p.counted b.delta).elapsed) :
      Late b (p.withTimeout (some timeout)) timeout := by
  refine ⟨?_, h⟩
  show Config.limit? (some timeout) = some timeout
  exact Option.filter_eq_some_iff.mpr ⟨rfl, decide_eq_true hpos⟩

end PlaybackRun

namespace AssignmentRun

variable {now : Instant} {b : Beat} {env : Environment} {a : Assignment} {c : Config}
  {r r' : AssignmentRun}

/-- Only a tick with time left completes an assignment, and the result is that of the playback. -/
theorem Steps.of_completed (h : Steps now b env r r') (hs : r.status = .running)
    (hc : r'.status = .completed) :
    ∃ p result, Plays r p ∧ r.HasTime ∧ (p.tick b env).subject.result = some result ∧
      r'.result = some result := by
  cases h with
  | complete h ht hr => exact ⟨_, _, h, ht, hr, rfl⟩
  -- no other step turns a running assignment into a completed one
  | ended ht => rw [hs] at ht; exact absurd ht (by decide)
  | early | goOn => exact absurd (hs.symm.trans (show r.status = .completed from hc)) (by decide)
  | unloadable hs' | begin hs' => rw [hs] at hs'; exact absurd hs' (by decide)
  | astray | late | fail => exact absurd (show Status.failed = .completed from hc) (by decide)

/-- A tick that begins when the time is up fails the assignment and says so, if there is a playback
to break off. -/
theorem Steps.of_over_limit (h : Steps now b env r r') (hs : r.status = .running) {timeout : Float}
    (ht : r.assignment.timeout = some timeout) (hle : timeout ≤ r.elapsed) :
    r'.status = .failed ∧ (r.playback.isSome →
      r'.details = some (Report.errorDetails (lateness timeout))) := by
  cases h with
  | late h ht' =>
    obtain rfl := Option.some.inj (ht.symm.trans ht')
    exact ⟨rfl, fun _ => rfl⟩
  | astray _ hp => exact ⟨rfl, fun hsome => by rw [hp] at hsome; cases hsome⟩
  | ended h => rw [hs] at h; exact absurd h (by decide)
  | early hs' | unloadable hs' | begin hs' => rw [hs] at hs'; exact absurd hs' (by decide)
  -- every other step of what is played needs time left
  | goOn _ hn | complete _ hn | fail _ hn => exact absurd hle (hn timeout ht)

/-- **When an assignment sees that its time is up.** While it is being played, it knows how long its
playback has taken up to the last tick, and fails in the next tick if that is the limit or more. A
tick that completes it was begun with time left, and what it takes itself is not looked at: either
that is within the limit, too, or a playback with the same limit would have ended in that very tick,
without success. -/
theorem limit_is_seen_next_tick (h : Reachable a c r) (hs : r.status = .running) {timeout : Float}
    (ht : r.assignment.timeout = some timeout) (hpos : 0.0 < timeout) :
    ∃ p, r.playback = some p ∧ r.elapsed = p.elapsed ∧
      (timeout ≤ p.elapsed → ∀ now b env, let r' := (r.tick now b env).subject
        r'.status = .failed ∧ r'.details = some (Report.errorDetails (lateness timeout))) ∧
      ∀ now b env, (r.tick now b env).subject.status = .completed →
        ∃ result, (r.tick now b env).subject.result = some result ∧ p.elapsed < timeout ∧
          result.duration = (p.counted b.delta).elapsed ∧
            (result.duration < timeout ∨
              ∃ result', ((p.withTimeout (some timeout)).tick b env).subject.result = some result' ∧
                result'.success = false) := by
  obtain ⟨playlist, p, hreach, hp, hn, he, -⟩ := h.sound.of_running hs
  -- a limit that counts is not negative, so what is not over it is below it
  have hlimit : 0.0 ≤ timeout := Clock.le_of_lt hpos
  refine ⟨p, hp, he, fun hle now b env => ?_, fun now b env hc => ?_⟩
  · obtain ⟨hfailed, hdetails⟩ := (tick_steps now b r env).of_over_limit hs ht (he ▸ hle)
    exact ⟨hfailed, hdetails (by rw [hp]; rfl)⟩
  · -- the tick has completed it, so it was begun with time left
    obtain ⟨q, result, hq, htime, hr, hresult⟩ := (tick_steps now b r env).of_completed hs hc
    obtain rfl := Option.some.inj (hp.symm.trans hq.playback)
    have hd : result.duration = (p.counted b.delta).elapsed := PlaybackRun.duration_of_tick hn hr
    have hleft : ¬ timeout ≤ p.elapsed := he ▸ htime timeout ht
    refine ⟨result, hresult, Clock.lt_of_not_le hreach.sound.elapsed hlimit hleft, hd, ?_⟩
    rw [hd]
    -- whether the tick itself went over the limit is not asked by the assignment
    by_cases hle : timeout ≤ (p.counted b.delta).elapsed
    · have hlate := PlaybackRun.late_withTimeout hpos hle
      have hrun : (p.withTimeout (some timeout)).result = none := hn
      exact .inr (PlaybackRun.exists_result_of_late hrun hlate env)
    · exact .inl (Clock.lt_of_not_le
        (PlaybackRun.zero_le_counted hreach.sound.elapsed b.delta) hlimit hle)

/-- The errand takes a second, which is all that it has, and still completes. -/
theorem errandAfter_three : (errandAfter (2 + 1)).status = .completed ∧
    ((errandAfter (2 + 1)).result.map fun result => decide (result.duration < 1.0)) =
      some false := by
  constructor <;> decide +kernel

/-- A playback with the limit of the errand would have failed in the tick that completes it. -/
theorem errand_would_time_out :
    ∃ p result, (errandAfter 2).playback = some p ∧ p.elapsed < 1.0 ∧
      ((p.withTimeout (some 1.0)).tick (PlaybackRun.second false) (.of .empty)).subject.result =
        some result ∧
        result.success = false := by
  obtain ⟨hdone, hover⟩ := errandAfter_three
  rw [errandAfter_succ] at hdone hover
  obtain ⟨p, hp, -, -, htick⟩ :=
    limit_is_seen_next_tick (errandAfter_reachable 2) (by decide +kernel)
    (show _ = some (1.0 : Float) by decide +kernel) (by decide)
  obtain ⟨result, hresult, hleft, -, hlate⟩ :=
    htick .epoch (PlaybackRun.second false) (.of .empty) hdone
  obtain ⟨result', hresult', hfalse⟩ := Option.map_eq_some_iff.mp hover
  -- the tick that completes the errand is the one that the limit would have seen
  obtain rfl := Option.some.inj (hresult.symm.trans hresult')
  obtain ⟨last, hlast, hf⟩ := hlate.resolve_left (of_decide_eq_false hfalse)
  exact ⟨p, last, hp, hleft, hlast, hf⟩

/-- **An assignment may complete and have taken its whole limit.** -/
theorem completes_over_limit :
    ¬ ∀ (a : Assignment) (c : Config) (r : AssignmentRun) (timeout : Float) (result : RunResult),
      Reachable a c r → r.assignment.timeout = some timeout → 0.0 < timeout →
        r.status = .completed → r.result = some result → result.duration < timeout := by
  intro hall
  obtain ⟨hdone, hover⟩ := errandAfter_three
  obtain ⟨result, hresult, hfalse⟩ := Option.map_eq_some_iff.mp hover
  have hlt := hall errand .default (errandAfter (2 + 1)) 1.0 result (errandAfter_reachable _)
    (by decide +kernel) (by decide) hdone hresult
  exact of_decide_eq_false hfalse hlt

end AssignmentRun

end Playtest
