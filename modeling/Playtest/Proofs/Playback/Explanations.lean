import Playtest.Proofs.Playback.Results

/-!
# Explanations

A segment that was stopped says why. The main result,
`PlaybackRun.explained_unless_validations_ran_out`, is that in the result of a run a segment that
was started has a detail just if it has timed out or failed, whichever way it came to that. A
segment that has passed has none, and neither has one that went on only because its wait for
validations ran out: it has completed, does not pass, and nothing says why.

`SegmentRun.Explained` is the invariant of a segment's run behind it. Details are written where a
run is stopped and nowhere else, so every part of a tick keeps it (`Explained.opens`,
`Explained.judges`, `Explained.closes`).
-/

namespace Playtest

/-- Whether a segment was stopped before it was complete. -/
def SegmentState.isStopped : SegmentState → Bool
  | timedOut | failed => true
  | pending | awaitingEntry | executing | awaitingCompletion | completed | skipped => false

namespace SegmentState

theorem not_isStopped_of_isWaiting {s : SegmentState} (h : s.isWaiting) : s.isStopped = false := by
  cases s <;> simp_all [isWaiting, isStopped]

end SegmentState

/-- The phase that comes next is none that stops a segment. -/
theorem Phase.next_not_isStopped (p : Phase) : p.next.isStopped = false := by
  cases p <;> rfl

namespace SegmentRun

variable {m : Moment} {env : Environment} {r r' : SegmentRun} {cs : List Call}

/-- **The invariant**: there is a detail just if the segment was stopped. -/
def Explained (r : SegmentRun) : Prop := r.detail.isSome = r.state.isStopped

/-- A run that goes on has nothing to explain, before and after. -/
theorem Explained.moved (h : r.Explained) (hd : r'.detail = r.detail)
    (hs : r.state.isStopped = false) (hs' : r'.state.isStopped = false) : r'.Explained := by
  unfold Explained
  rw [hd, hs', ← hs]
  exact h

/-- What fails a segment writes why. -/
theorem explained_failed (reason : String) : (r.failed reason).Explained := rfl

/-- So does what times it out. -/
theorem explained_timedOut (reason : String) : (r.timedOut reason).Explained := rfl

/-! ### Ticks -/

/-- An action that cannot be started, or is refused, says so. -/
theorem Explained.opens (h : r.Explained) (ho : Opens m env r cs r') : r'.Explained := by
  cases ho with
  | begin hs => exact h.moved rfl (by rw [hs]; rfl) rfl
  | pass hs | astray hs => exact h.moved rfl (by rw [hs]; rfl) rfl
  | start aim => exact h.moved rfl (by rw [aim.state]; rfl) rfl
  | wait | missing | idle | poll => exact h
  | unable hs reason => exact explained_failed reason
  | refuse aim he reason => exact explained_failed reason

/-- So does an evaluation that fails. One that holds moves on and says nothing. -/
theorem Explained.judges (h : r.Explained) (hj : Judges r r') : r'.Explained := by
  cases hj with
  | rest hn =>
    cases hn
    exact h
  | hold phase hs hn =>
    have hstate : r.state.isStopped = false :=
      SegmentState.not_isStopped_of_isWaiting (hs ▸ phase.state_isWaiting)
    -- it moves on from one state that is not stopped to another
    cases hn
    exact h.moved rfl hstate phase.next_not_isStopped
  | fail hs reason => exact explained_failed reason

/-- The time limit of the segment writes that it was late. -/
theorem Explained.closes (h : r.Explained) (hc : Closes env r cs r') : r'.Explained := by
  cases hc with
  | inTime => exact h
  | late => exact explained_timedOut _

/-- **A tick keeps the invariant.** -/
theorem Explained.tick (h : r.Explained) (m : Moment) (env : Environment) :
    (r.tick m env).subject.Explained := by
  by_cases ht : r.state.isTerminal
  · rw [tick_of_isTerminal m env ht]
    exact h
  · -- counting the tick changes neither the detail nor the state
    have hcounted : (r.counted m.delta).Explained := h
    obtain ⟨cs, ds, env₁, r₁, r₂, ho, -, hj, hc, -⟩ := tick_parts m env ht
    exact ((hcounted.opens ho).judges hj).closes hc

/-! ### What ends a run from outside -/

/-- Skipping a segment explains nothing. -/
theorem Explained.skipped (h : r.Explained) : r.skipped.Explained := by
  unfold SegmentRun.skipped
  split
  · -- one that has not begun has no detail
    next hs => exact h.moved rfl (by rw [hs]; rfl) rfl
  · exact h

/-- Breaking it off writes the reason, if it is under way. -/
theorem Explained.cutOff (h : r.Explained) (reason : String) : (r.cutOff reason).Explained := by
  unfold SegmentRun.cutOff
  split
  · exact h
  split
  · exact h.skipped
  · exact explained_timedOut reason

/-- The invariant holds of every run of a segment. -/
theorem Reachable.explained (h : Reachable r) : r.Explained := by
  -- induction over what is done to the run
  induction h with
  | of => rfl
  | tick m env _ ih => exact ih.tick m env
  | abort reason env _ ih =>
    rw [abort_subject]
    exact ih.cutOff reason
  | skip env _ ih =>
    rw [(skip_eq env).1]
    exact ih.skipped

/-! ### Results -/

/-- What is told of a segment that was started. -/
theorem result_of_started (h : r.result.outcome ≠ .notStarted) :
    r.result.outcome = r.outcome ∧ r.result.detail = r.detail ∧
      r.result.validationsTimedOut = r.validationsTimedOut := by
  rw [result_outcome] at h
  unfold result
  rw [if_neg h]
  exact ⟨rfl, rfl, rfl⟩

/-- A result counts ticks only if the segment was started. -/
theorem started_of_ticks (h : 0 < r.result.ticks) : r.result.outcome ≠ .notStarted := by
  intro hn
  rw [result_outcome] at hn
  unfold result at h
  rw [if_pos hn] at h
  exact UInt64.lt_irrefl 0 h

/-- **How a segment that has ended is told of**, if it was started. -/
theorem Reachable.tells (h : Reachable r) (ht : r.state.isTerminal) (hs : 0 < r.result.ticks) :
    (r.result.detail.isSome ↔ r.result.outcome = .timedOut ∨ r.result.outcome = .failed) ∧
      (r.result.passed ↔ r.result.outcome = .completed ∧ ¬ r.result.validationsTimedOut) := by
  have hstarted := started_of_ticks hs
  obtain ⟨ho, hd, hv⟩ := result_of_started hstarted
  have he : r.detail.isSome = r.state.isStopped := h.explained
  rw [result_outcome] at hstarted
  rw [result_passed, ho, hd, hv, he]
  unfold outcome at hstarted ⊢
  unfold passed
  -- one case for each state in which a run ends
  cases hstate : r.state <;> simp_all [SegmentState.isStopped, SegmentState.isTerminal]

end SegmentRun

namespace PlaybackRun

variable {p : Playlist} {c : Config} {r : PlaybackRun} {result : RunResult}

/-! ### An inspection -/

/-- An inspection that waits a second for what is still validated, and then for an exit. -/
def inspection : Playlist where
  name := "inspection"
  lists :=
    [⟨"main", "", 1, [{ Segment.ofName "check" with endCriteria := [.of (.validations 1.0)] },
      { Segment.ofName "leave" with endCriteria :=
        [.of (.path false ⟨"Exit", .nonZero, 0, 0, 0⟩)] }]⟩]

/-- The inspection after some seconds with a validation that does not come to an end. There is no
exit. -/
def inspectionAfter : Nat → PlaybackRun
  | 0 => .of inspection .default "an-inspection" 0
  | n + 1 =>
      ((inspectionAfter n).tick (second false)
        { Environment.of .empty with pendingValidations := .fixed 1 }).subject

/-- The inspection is a run like any other. -/
theorem inspectionAfter_reachable (n : Nat) :
    Reachable inspection .default (inspectionAfter n) := by
  induction n with
  | zero => exact .fresh (.of "an-inspection" 0)
  | succ n ih => exact ih.tick _ _

/-- The inspection is stopped after three seconds, when it has given up the check and waits for the
exit. -/
def inspected : PlaybackRun := ((inspectionAfter 3).abort "stop" (.of .empty)).subject

theorem inspected_reachable : Reachable inspection .default inspected :=
  (inspectionAfter_reachable 3).abort "stop" (.of .empty)

/-- What is told of both segments. -/
theorem inspected_result :
    ∃ result check leave, inspected.result = some result ∧ result.segments = [check, leave] ∧
      (check.outcome, check.ticks, check.passed, check.detail) = (.completed, 2, false, none) ∧
        (leave.outcome, leave.ticks, leave.passed, leave.detail) =
          (.timedOut, 1, false, some "stop") := by
  have hlength : inspected.result.map (fun result => result.segments.length) = some 2 := by rfl
  obtain ⟨result, hr, hl⟩ := Option.map_eq_some_iff.mp hlength
  obtain ⟨check, leave, hs⟩ := List.length_eq_two.mp hl
  have htold : inspected.result.map (fun result => result.segments.map fun entry =>
      (entry.outcome, entry.ticks, entry.passed, entry.detail)) =
        some [(.completed, 2, false, none), (.timedOut, 1, false, some "stop")] := by rfl
  rw [hr, Option.map_some, hs] at htold
  have htold := Option.some.inj htold
  exact ⟨result, check, leave, hr, hs, (List.cons.inj htold).1,
    (List.cons.inj (List.cons.inj htold).2).1⟩

/-! ### Details -/

/-- **A segment that was stopped says why**, and no other does. So a segment that was started has a
detail just if it has not passed, with one exception: it has completed because its wait for
validations ran out. Then it has not passed, and has no detail. -/
theorem explained_unless_validations_ran_out (h : Reachable p c r) (hr : r.result = some result) :
    ∀ entry ∈ result.segments, 0 < entry.ticks →
      (entry.detail.isSome ↔ entry.outcome = .timedOut ∨ entry.outcome = .failed) ∧
        (entry.passed ↔ entry.outcome = .completed ∧ ¬ entry.validationsTimedOut) ∧
          ((entry.detail.isSome ↔ ¬ entry.passed) ↔
            ¬ (entry.outcome = .completed ∧ entry.validationsTimedOut)) := by
  obtain ⟨hresult, hended⟩ := h.sound.allEnded hr
  intro entry he hstarted
  rw [hresult] at he
  obtain ⟨s, hs, rfl⟩ := List.mem_map.mp he
  obtain ⟨hd, hp⟩ := (h.segments_reachable s hs).tells (hended s hs) hstarted
  refine ⟨hd, hp, ?_⟩
  -- what has started did not end without an outcome
  have hne := SegmentRun.started_of_ticks hstarted
  rw [hd, hp]
  cases ho : s.result.outcome <;> simp_all

/-- The check was given up and has no detail. The exit was waited for in vain, and that is said. -/
theorem inspection_explains_the_exit :
    ∃ result check leave, inspected.result = some result ∧ result.segments = [check, leave] ∧
      (0 < check.ticks ∧ check.detail = none ∧ ¬ check.passed ∧ check.outcome = .completed ∧
        check.validationsTimedOut) ∧
        0 < leave.ticks ∧ leave.detail.isSome ∧ ¬ leave.passed := by
  obtain ⟨result, check, leave, hr, hs, hcheck, hleave⟩ := inspected_result
  simp only [Prod.mk.injEq] at hcheck hleave
  obtain ⟨hco, hct, hcp, hcd⟩ := hcheck
  obtain ⟨hlo, hlt, hlp, -⟩ := hleave
  have hmem : check ∈ result.segments ∧ leave ∈ result.segments := by simp [hs]
  have hticks : 0 < check.ticks ∧ 0 < leave.ticks := by rw [hct, hlt]; decide
  obtain ⟨-, hpassed, -⟩ :=
    explained_unless_validations_ran_out inspected_reachable hr check hmem.1 hticks.1
  obtain ⟨hdetail, -, -⟩ :=
    explained_unless_validations_ran_out inspected_reachable hr leave hmem.2 hticks.2
  -- it completed and did not pass, and only its validations can be the reason
  have hgivenUp : check.validationsTimedOut := by
    by_contra hv
    exact absurd (hpassed.mpr ⟨hco, hv⟩) (by rw [hcp]; decide)
  exact ⟨result, check, leave, hr, hs, ⟨hticks.1, hcd, by rw [hcp]; decide, hco, hgivenUp⟩,
    hticks.2, hdetail.mpr (.inl hlo), by rw [hlp]; decide⟩

/-- Not every segment that was started and has not passed has a detail. -/
theorem check_says_nothing :
    ¬ ∀ (p : Playlist) (c : Config) (r : PlaybackRun) (result : RunResult),
      Reachable p c r → r.result = some result →
        ∀ entry ∈ result.segments, 0 < entry.ticks → (entry.detail.isSome ↔ ¬ entry.passed) := by
  intro h
  obtain ⟨result, check, leave, hr, hs, hcheck, -⟩ := inspected_result
  simp only [Prod.mk.injEq] at hcheck
  obtain ⟨-, hct, hcp, hcd⟩ := hcheck
  have hiff := h _ _ _ result inspected_reachable hr check (by simp [hs]) (by rw [hct]; decide)
  rw [hcd, hcp] at hiff
  exact absurd (hiff.mpr Bool.false_ne_true) Bool.false_ne_true

end PlaybackRun

end Playtest
