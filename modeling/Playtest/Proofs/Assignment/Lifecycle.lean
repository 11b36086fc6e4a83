import Playtest.Proofs.Assignment.Course
import Playtest.Proofs.Playback.Results

/-!
# The life of an assignment

In whatever order ticks and updates arrive, and whatever comes of the playback, an assignment only
goes on (`Status.Follows`), nothing happens to it any more once it has ended, and only an update
that asks for it cancels it. `AssignmentRun.course_of_status` says all of this, together with what
the playback and the result of an assignment are in each of its states (`AssignmentRun.Consistent`).
-/

namespace Playtest

open Playtest.Calendar

/-- The **changes of status**. -/
inductive Status.Follows : Status → Status → Prop
  | start : Follows .pending .running
  | complete : Follows .running .completed
  | fail {s : Status} (hs : s = .pending ∨ s = .running) : Follows s .failed
  | cancel {s : Status} (hs : s = .pending ∨ s = .running) : Follows s .cancelled

namespace AssignmentRun

variable {now : Instant} {b : Beat} {env : Environment} {a : Assignment} {c : Config}
  {r r' : AssignmentRun}

/-! ### Moves -/

/-- A tick leaves the status as it is or makes one of the changes. -/
theorem Steps.follows (h : Steps now b env r r') :
    r'.status = r.status ∨ r.status.Follows r'.status := by
  cases h with
  | ended | early | goOn => exact .inl rfl
  | unloadable hs => exact .inr (.fail (.inl hs))
  | begin hs => exact .inr (by rw [hs]; exact .start)
  | astray hs => exact .inr (.fail (.inr hs))
  | late h => exact .inr (.fail (.inr h.status))
  | complete h => exact .inr (by rw [h.status]; exact .complete)
  | fail h => exact .inr (.fail (.inr h.status))

/-- A tick does not cancel. -/
theorem Steps.cancelled_iff (h : Steps now b env r r') :
    r'.status = .cancelled ↔ r.status = .cancelled := by
  -- in most cases neither status is that of a cancellation
  have neither : ∀ {s s' : Status}, r.status = s → s ≠ .cancelled → s' ≠ .cancelled →
      (s' = .cancelled ↔ r.status = .cancelled) := by
    intro s s' hs hne hne'
    rw [hs]
    exact iff_of_false hne' hne
  have failed : Status.failed ≠ .cancelled := by decide
  cases h with
  | ended | early | goOn => exact Iff.rfl
  | unloadable hs | astray hs => exact neither hs (by decide) failed
  | late h | fail h => exact neither h.status (by decide) failed
  | begin hs => exact neither hs (by decide) (show Status.running ≠ .cancelled by decide)
  | complete h => exact neither h.status (by decide) (show Status.completed ≠ .cancelled by decide)

/-- What is cancelled says so. -/
theorem Stops.status (h : Stops env r r') : r'.status = .cancelled := by
  cases h <;> rfl

/-- What an update that counts for nothing leaves alone. -/
structure SameWork (r r' : AssignmentRun) : Prop where
  status : r'.status = r.status
  playback : r'.playback = r.playback
  details : r'.details = r.details
  result : r'.result = r.result

/-- What the remote side says about it is such an update. -/
theorem told_sameWork (remoteStatus : Option String) : SameWork r (r.told remoteStatus) :=
  ⟨rfl, rfl, rfl, rfl⟩

/-! ### States -/

/-- The playback and the result **go with the status**. -/
structure Consistent (r : AssignmentRun) : Prop where
  pending : r.status = .pending → r.playback = none ∧ r.result = none
  running : r.status = .running → (∃ p, r.playback = some p ∧ ¬ p.isFinished) ∧ r.result = none
  completed : r.status = .completed ↔ ∃ result, r.result = some result ∧ result.success = true
  /-- Either nothing was ever played, or all segments have ended. -/
  ended : r.status = .failed ∨ r.status = .cancelled →
    (r.playback = none ∧ r.result = none) ∨
      ∃ p result, r.playback = some p ∧ r.result = some result ∧ result.success = false ∧
        result.segments = p.segments.map SegmentRun.result ∧ ∀ s ∈ p.segments, s.state.isTerminal

section Standing

variable {s : Status} {e : Float} {pb : Option PlaybackRun} {res : Option RunResult}

/-- A success is what distinguishes a completed assignment. -/
theorem Standing.completed_iff (h : Standing c s e pb res) :
    s = .completed ↔ ∃ result, res = some result ∧ result.success = true := by
  constructor
  · rintro rfl
    cases h with
    -- a success rules out the two kinds of an early ending
    | completed _ _ hs => exact ⟨_, rfl, hs⟩
    | unplayed he | stopped he => exact absurd he (by decide)
  · rintro ⟨result, rfl, hs⟩
    cases h with
    | completed => rfl
    | stopped _ _ _ hf => exact absurd (hf.symm.trans hs) (by decide)

/-- What has failed or was cancelled was never played, or all its segments have ended. -/
theorem Standing.ended (h : Standing c s e pb res) (hs : s = .failed ∨ s = .cancelled) :
    (pb = none ∧ res = none) ∨
      ∃ p result, pb = some p ∧ res = some result ∧ result.success = false ∧
        result.segments = p.segments.map SegmentRun.result ∧ ∀ t ∈ p.segments,
          t.state.isTerminal := by
  cases h with
  | pending | running | completed => exact absurd hs (by decide)
  | unplayed => exact .inl ⟨rfl, rfl⟩
  | stopped _ hreach hr hf => exact .inr ⟨_, _, rfl, rfl, hf, hreach.sound.allEnded hr⟩

end Standing

/-- **What is sound is consistent.** -/
theorem Sound.consistent (h : Sound c r) : Consistent r where
  pending := by
    intro hs
    obtain ⟨hp, hr, -⟩ := h.of_pending hs
    exact ⟨hp, hr⟩
  running := by
    intro hs
    obtain ⟨playlist, p, -, hp, hn, -, hr⟩ := h.of_running hs
    exact ⟨⟨p, hp, PlaybackRun.not_isFinished hn⟩, hr⟩
  completed := h.standing.completed_iff
  ended := h.standing.ended

/-- A tick does nothing to an assignment that has ended. -/
theorem tick_of_isTerminal (h : r.status.isTerminal) (now : Instant) (b : Beat)
    (env : Environment) :
    r.tick now b env = .still r env := by
  unfold tick
  split
  · next hs => rw [hs] at h; exact absurd h (by decide)
  · next hs => rw [hs] at h; exact absurd h (by decide)
  all_goals rfl

/-- **The status of an assignment** moves on only, and stays when the assignment has ended. A tick
never cancels, and an update cancels on the spot if it is one that does, and leaves the work alone
if it is not. The playback and the result always go with the status. -/
theorem course_of_status (h : Reachable a c r) :
    (∀ now b env, let r' := (r.tick now b env).subject
      (r'.status = r.status ∨ r.status.Follows r'.status) ∧
        (r'.status = .cancelled ↔ r.status = .cancelled)) ∧
    (∀ sent env, let r' := (r.update sent env).subject
      (r'.status = r.status ∨ r.status.Follows r'.status) ∧
        (r'.status = .cancelled ↔ r.status = .cancelled ∨ Cancels sent r) ∧
          (¬ Cancels sent r → SameWork r r')) ∧
    (r.status.isTerminal →
      (∀ now b env, r.tick now b env = .still r env) ∧
        ∀ sent env, SameWork r (r.update sent env).subject) ∧
    Consistent r := by
  -- an update that does not cancel is only taken note of
  have ignored : ∀ sent env, ¬ Cancels sent r → SameWork r (r.update sent env).subject := by
    intro sent env hc
    obtain ⟨remoteStatus, hr⟩ := update_of_not_cancels hc env
    exact hr ▸ told_sameWork remoteStatus
  refine ⟨fun now b env => ?_, fun sent env => ?_,
    fun ht => ⟨tick_of_isTerminal ht, fun sent env => ?_⟩, h.sound.consistent⟩
  · -- a tick is one of the steps, and each of them is one of the changes
    have hs := tick_steps now b r env
    exact ⟨hs.follows, hs.cancelled_iff⟩
  · -- an update cancels or is ignored
    by_cases hc : Cancels sent r
    · have hs := (update_of_cancels hc env).status
      dsimp only
      rw [hs]
      exact ⟨.inr (.cancel (Status.pending_or_running hc.going)), iff_of_true rfl (.inr hc),
        fun hn => absurd hc hn⟩
    · have hs := (ignored sent env hc).status
      dsimp only
      rw [hs]
      exact ⟨.inl rfl, ⟨.inl, fun hs => hs.resolve_right hc⟩, ignored sent env⟩
  · -- after the end no update can cancel any more
    exact ignored sent env fun hc => hc.going ht

/-- The errand runs after its first tick and is done after its third one, unless somebody asks for
it to be cancelled before. -/
theorem errand_is_done :
    (errandAfter 1).status = .running ∧ (∃ p, (errandAfter 1).playback = some p ∧ ¬ p.isFinished) ∧
      (∃ result, (errandAfter 3).result = some result ∧ result.success = true) ∧
        ((errandAfter 2).update { errand with remoteStatus := some "Cancelled" }
          (.of .empty)).subject.status = .cancelled := by
  have hrunning : (errandAfter 1).status = .running := by decide +kernel
  have hdone : (errandAfter 3).status = .completed := by decide +kernel
  have hcancels : Cancels { errand with remoteStatus := some "Cancelled" } (errandAfter 2) :=
    ⟨by decide +kernel, ⟨"Cancelled", rfl, by decide +kernel⟩, by decide +kernel⟩
  obtain ⟨-, -, -, hfirst⟩ := course_of_status (errandAfter_reachable 1)
  obtain ⟨-, hupdate, -⟩ := course_of_status (errandAfter_reachable 2)
  obtain ⟨-, -, -, hlast⟩ := course_of_status (errandAfter_reachable 3)
  obtain ⟨-, hcancelled, -⟩ := hupdate { errand with remoteStatus := some "Cancelled" } (.of .empty)
  exact ⟨hrunning, (hfirst.running hrunning).1, hlast.completed.mp hdone,
    hcancelled.mpr (.inr hcancels)⟩

end AssignmentRun

end Playtest
