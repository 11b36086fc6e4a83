import Playtest.Proofs.Playback.HostCalls

/-!
# What a run is called

A run gets its id and its start time from outside, and both stand above its result. Nothing else
comes of them. `PlaybackRun.headed` is a run under another heading, and
`PlaybackRun.serveAll_headed` says that the heading makes no difference to anything that a host can
do: the environment is the same afterwards, and so is the run, again but for its heading.
-/

namespace Playtest

/-- The result under another heading. -/
def RunResult.headed (runId : String) (startedAt : Int64) (saveLocation : String)
    (result : RunResult) : RunResult :=
  { result with runId, startedAt, saveLocation }

namespace PlaybackRun

variable {r : PlaybackRun} {env : Environment} (runId : String) (startedAt : Int64)

/-- The run **under another heading**. Where its result is kept goes by the run id. -/
def headed (r : PlaybackRun) : PlaybackRun :=
  { r with
    runId, startedAt
    result := r.result.map
      (RunResult.headed runId startedAt (Resource.joinPath r.outputDir runId)) }

/-- A heading says nothing about the segments. -/
@[simp] theorem segments_headed : (r.headed runId startedAt).segments = r.segments := rfl

/-- Nor about whether the run has ended. -/
@[simp] theorem result_headed_eq_none_iff :
    (r.headed runId startedAt).result = none ↔ r.result = none :=
  Option.map_eq_none_iff

/-- A result that is yet to be made gets the heading of the run. -/
theorem ended_headed (ranThrough : Bool) :
    (r.headed runId startedAt).ended ranThrough = (r.ended ranThrough).headed runId startedAt := rfl

/-- Breaking a run off does the same under any heading. -/
theorem breakOff_headed (reason : String) (env : Environment) :
    (breakOff reason (r.headed runId startedAt) env).subject =
        (breakOff reason r env).subject.headed runId startedAt ∧
      (breakOff reason (r.headed runId startedAt) env).env = (breakOff reason r env).env := by
  refine ⟨?_, rfl⟩
  rw [breakOff_subject, breakOff_subject, ← ended_headed]
  rfl

/-- **So does a tick.** -/
theorem tick_headed (b : Beat) (r : PlaybackRun) (env : Environment) :
    ((r.headed runId startedAt).tick b env).subject =
      (r.tick b env).subject.headed runId startedAt ∧
      ((r.headed runId startedAt).tick b env).env = (r.tick b env).env := by
  cases hr : r.result with
  | some result =>
    -- a run that has ended stays as it is
    have hr' : (r.headed runId startedAt).result = some _ := congrArg (Option.map _) hr
    rw [tick_of_ended hr, tick_of_ended hr']
    exact ⟨rfl, rfl⟩
  | none =>
    have hr' : (r.headed runId startedAt).result = none := (result_headed_eq_none_iff ..).mpr hr
    -- the same obstacle, and else the same round of the same lists
    have hbegun : (r.headed runId startedAt).begun b = (r.begun b).headed runId startedAt := rfl
    have hplayed : (r.headed runId startedAt).played b env =
        (r.played b env).headed runId startedAt := rfl
    have hround : (r.headed runId startedAt).round b env = r.round b env := rfl
    cases ho : (r.begun b).obstacle? with
    | some reason =>
      obtain ⟨hs, he⟩ := tick_eq b env hr
      obtain ⟨hs', he'⟩ := tick_eq b env hr'
      rw [hbegun, show ((r.begun b).headed runId startedAt).obstacle? = some reason from ho]
        at hs' he'
      rw [ho] at hs he
      rw [hs, hs', he, he']
      exact breakOff_headed runId startedAt reason _
    | none =>
      obtain ⟨hs, he⟩ := tick_of_no_obstacle env hr ho
      obtain ⟨hs', he'⟩ := tick_of_no_obstacle env hr' ho
      rw [hround, hplayed] at hs' he'
      rw [hs, hs', he, he']
      cases (r.round b env).subject.fatal with
      | some reason => exact breakOff_headed runId startedAt reason _
      | none =>
        dsimp only
        change
          (if (r.played b env).lists.all ListRun.isFinished then _ else _ :
            Turn PlaybackRun).subject = _ ∧
          (if (r.played b env).lists.all ListRun.isFinished then _ else _ :
            Turn PlaybackRun).env = _
        split
        · exact ⟨ended_headed runId startedAt true, rfl⟩
        · exact ⟨rfl, rfl⟩

/-- And so does ending it from outside. -/
theorem abort_headed (reason : String) (r : PlaybackRun) (env : Environment) :
    ((r.headed runId startedAt).abort reason env).subject =
        (r.abort reason env).subject.headed runId startedAt ∧
      ((r.headed runId startedAt).abort reason env).env = (r.abort reason env).env := by
  have hfinished : (r.headed runId startedAt).isFinished = r.isFinished := Option.isSome_map
  unfold abort
  rw [hfinished]
  split
  · exact ⟨rfl, rfl⟩
  · exact breakOff_headed runId startedAt reason env

/-- A host can do nothing that would tell the headings apart. -/
theorem serve_headed (call : HostCall) (r : PlaybackRun) (env : Environment) :
    (serve call (r.headed runId startedAt) env).subject =
        (serve call r env).subject.headed runId startedAt ∧
      (serve call (r.headed runId startedAt) env).env = (serve call r env).env := by
  cases call with
  | tick b => exact tick_headed runId startedAt b r env
  | abort reason => exact abort_headed runId startedAt reason r env
  | meanwhile change => exact ⟨rfl, rfl⟩

/-- **The heading makes no difference** to what becomes of a run. -/
theorem serveAll_headed (calls : List HostCall) (r : PlaybackRun) (env : Environment) :
    (serveAll calls (r.headed runId startedAt) env).subject =
        (serveAll calls r env).subject.headed runId startedAt ∧
      (serveAll calls (r.headed runId startedAt) env).env = (serveAll calls r env).env := by
  induction calls generalizing r env with
  | nil => exact ⟨rfl, rfl⟩
  | cons call calls ih =>
    -- one call, and then the others on what it has left
    obtain ⟨hs, he⟩ := serve_headed runId startedAt call r env
    change (serveAll calls (serve call (r.headed runId startedAt) env).subject _).subject = _ ∧
      (serveAll calls (serve call (r.headed runId startedAt) env).subject _).env = _
    rw [hs, he]
    exact ih _ _

end PlaybackRun

end Playtest
