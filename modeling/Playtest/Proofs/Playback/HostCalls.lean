import Playtest.Proofs.Playback.Reachable
import Playtest.Proofs.Report.Reporter

/-!
# What a host does with a run

A host ticks a run, may end it from outside, and may change its environment between two calls:
replies arrive, validations finish. `PlaybackRun.serveAll` is what becomes of a run and its
environment when the host does these things one after another, with one environment that is handed
on.

`PlaybackRun.ended_is_silent` is about the whole life of a run. Its reporter is told nothing as long
as the run goes on, and everything, once, when it ends. After that the host may go on calling:
neither the run nor the environment takes any notice.
-/

namespace Playtest

/-- What a **host** may do. -/
inductive HostCall where
  | tick (b : Beat)
  | abort (reason : String)
  /-- Nothing that the run knows of. -/
  | meanwhile (change : Environment → Environment)

/-- What the host makes of an environment **between the calls**, as if there were no run. -/
def HostCall.changes : List HostCall → Environment → Environment
  | [], env => env
  | .meanwhile change :: cs, env => changes cs (change env)
  | .tick _ :: cs, env | .abort _ :: cs, env => changes cs env

namespace PlaybackRun

variable {r r' : PlaybackRun} {env : Environment} {result : RunResult}

/-- What comes of one call, with the environment handed on. -/
def serve (c : HostCall) (r : PlaybackRun) (env : Environment) : Turn PlaybackRun :=
  match c with
  | .tick b => r.tick b env
  | .abort reason => r.abort reason env
  | .meanwhile change => .still r (change env)

/-- **One call after another.** -/
def serveAll : List HostCall → PlaybackRun → Environment → Turn PlaybackRun
  | [], r, env => .still r env
  | c :: cs, r, env => (serve c r env).andThen (serveAll cs)

/-! ### The end -/

/-- A run that has ended takes no notice of any calls. -/
theorem serveAll_of_ended (h : r.result = some result) (cs : List HostCall) (env : Environment) :
    serveAll cs r env = .still r (HostCall.changes cs env) := by
  induction cs generalizing env with
  | nil => rfl
  | cons c cs ih =>
    change (serve c r env).andThen (serveAll cs) = _
    -- the call itself does nothing, and the others do nothing after it
    cases c with
    | tick b =>
      rw [serve, tick_of_ended h]
      exact ih env
    | abort reason =>
      rw [serve, abort_of_ended h]
      exact ih env
    | meanwhile change => exact ih (change env)

/-- No call breaks the invariant of a run. -/
theorem Sound.serve {p : Playlist} {c : Config} (h : Sound p c r) (call : HostCall)
    (env : Environment) : Sound p c (serve call r env).subject := by
  cases call with
  | tick b => exact h.tick b env
  | abort reason => exact h.abort reason env
  | meanwhile change => exact h

/-! ### The life of a run -/

/-- What a run **keeps**, whatever is done with it. -/
structure Kept (r r' : PlaybackRun) : Prop where
  runId : r'.runId = r.runId
  sequenceName : r'.sequenceName = r.sequenceName
  startedAt : r'.startedAt = r.startedAt
  outputDir : r'.outputDir = r.outputDir
  timeout : r'.timeout = r.timeout
  reporter : r'.reporter = r.reporter
  result : r'.result = r.result

theorem Kept.refl (r : PlaybackRun) : Kept r r := ⟨rfl, rfl, rfl, rfl, rfl, rfl, rfl⟩

/-- What is kept by one thing after another is kept by both. -/
theorem Kept.trans {r'' : PlaybackRun} (h : Kept r r') (h' : Kept r' r'') : Kept r r'' where
  runId := h'.runId.trans h.runId
  sequenceName := h'.sequenceName.trans h.sequenceName
  startedAt := h'.startedAt.trans h.startedAt
  outputDir := h'.outputDir.trans h.outputDir
  timeout := h'.timeout.trans h.timeout
  reporter := h'.reporter.trans h.reporter
  result := h'.result.trans h.result

/-- **What may come of a run** that has not ended: it goes on, or it has been ended once. -/
inductive Lives (r : PlaybackRun) : PlaybackRun → Prop
  | on {r' : PlaybackRun} (h : Kept r r') : Lives r r'
  | ended {r₁ r' : PlaybackRun} (h : Kept r r₁) (ranThrough : Bool)
      (he : r' = r₁.ended ranThrough) : Lives r r'

/-- A tick keeps everything, or ends the run. -/
theorem lives_tick (b : Beat) (env : Environment) (h : r.result = none) :
    Lives r (r.tick b env).subject := by
  have hbegun : Kept r (r.begun b) := ⟨rfl, rfl, rfl, rfl, rfl, rfl, rfl⟩
  have hplayed : Kept r (r.played b env) := ⟨rfl, rfl, rfl, rfl, rfl, rfl, rfl⟩
  have hcut : ∀ {r' : PlaybackRun} reason, Kept r r' → Kept r (r'.cutOff reason) :=
    fun _ h => h.trans ⟨rfl, rfl, rfl, rfl, rfl, rfl, rfl⟩
  -- it is ended by an obstacle, by a segment that is fatal, or because nothing is left to play
  cases ho : (r.begun b).obstacle? with
  | some reason =>
    exact .ended (hcut reason hbegun) false (tick_of_obstacle h ho).1
  | none =>
    cases hf : (r.round b env).subject.fatal with
    | some reason =>
      exact .ended (hcut reason hplayed) false (tick_of_fatal h ho hf).1
    | none =>
      rw [(tick_of_not_fatal h ho hf).2]
      split
      · exact .ended hplayed true rfl
      · exact .on hplayed

/-- So does every other call. -/
theorem lives_serve (c : HostCall) (env : Environment) (h : r.result = none) :
    Lives r (serve c r env).subject := by
  cases c with
  | tick b => exact lives_tick b env h
  | abort reason =>
    have hcut : Kept r (r.cutOff reason) := ⟨rfl, rfl, rfl, rfl, rfl, rfl, rfl⟩
    exact .ended hcut false (abort_subject h)
  | meanwhile change => exact .on (.refl r)

/-- **The life of a run**: it goes on through some calls, and it is ended by one of them or by
none. -/
theorem lives_serveAll (cs : List HostCall) (env : Environment) (h : r.result = none) :
    Lives r (serveAll cs r env).subject := by
  -- induction over the calls, up to the one that ends the run
  induction cs generalizing r env with
  | nil => exact .on (.refl r)
  | cons c cs ih =>
    change Lives r (serveAll cs (serve c r env).subject (serve c r env).env).subject
    cases lives_serve c env h with
    | on hr =>
      cases ih (serve c r env).env (hr.result.trans h) with
      | on hr' => exact .on (hr.trans hr')
      | ended hr' ranThrough he => exact .ended (hr.trans hr') ranThrough he
    | @ended r₁ _ hr ranThrough he =>
      -- the calls behind the one that ended the run do nothing
      have hresult : (serve c r env).subject.result = some (r₁.outcome ranThrough) := by
        rw [he]; rfl
      rw [serveAll_of_ended hresult]
      exact .ended hr ranThrough he

/-- What stands above a result is what the run was called, and where it was told to keep it. -/
theorem heading_serveAll (h : r.result = none) {cs : List HostCall}
    (hresult : (serveAll cs r env).subject.result = some result) :
    result.runId = r.runId ∧ result.sequenceName = r.sequenceName ∧ result.startedAt = r.startedAt ∧
      result.saveLocation = Resource.joinPath r.outputDir r.runId := by
  have hlives := lives_serveAll cs env h
  generalize (serveAll cs r env).subject = r' at hlives hresult
  cases hlives with
  -- as long as the run goes on, there is no result
  | on hr =>
    rw [hr.result, h] at hresult
    cases hresult
  | @ended r₁ _ hr ranThrough he =>
    subst he
    obtain rfl : r₁.outcome ranThrough = result := Option.some.inj hresult
    rw [← hr.runId, ← hr.sequenceName, ← hr.startedAt, ← hr.outputDir]
    exact ⟨rfl, rfl, rfl, rfl⟩

/-- **A run that has ended is silent, and was told once.** Once a run has a result, each further
tick and each further attempt to end it leaves the run with that result and the environment as they
are, and says nothing. Until it has one, its reporter is told nothing. By the time that it has one,
whatever the host has done, the reporter has been told every entry of the result, in their order,
and then that there are no more. -/
theorem ended_is_silent (r : PlaybackRun) :
    (∀ result, r.result = some result → ∀ env, (∀ b, r.tick b env = .still r env) ∧
      (∀ reason, r.abort reason env = .still r env) ∧
        ∀ cs, serveAll cs r env = .still r (HostCall.changes cs env)) ∧
    (r.result = none → ∀ cs env,
      ((serveAll cs r env).subject.result = none →
        (serveAll cs r env).subject.reporter = r.reporter) ∧
      ∀ result reporter, (serveAll cs r env).subject.result = some result →
        r.reporter = some reporter →
        ∃ reporter', (serveAll cs r env).subject.reporter = some reporter' ∧
          reporter' = reporter.addAll result.segments ∧
            reporter'.notices = reporter.notices ++ result.segments.map .segment ++ [.finish]) := by
  constructor
  · intro result h env
    exact ⟨fun b => tick_of_ended h, fun reason => abort_of_ended h,
      fun cs => serveAll_of_ended h cs env⟩
  · intro h cs env
    have hlives := lives_serveAll cs env h
    generalize (serveAll cs r env).subject = r' at hlives
    cases hlives with
    | on hr =>
      refine ⟨fun _ => hr.reporter, fun result reporter hresult => ?_⟩
      rw [hr.result, h] at hresult
      cases hresult
    | @ended r₁ _ hr ranThrough he =>
      -- the reporter is told the entries of the result when it is made
      subst he
      refine ⟨fun hresult => (by cases hresult), fun result reporter hresult hreporter => ?_⟩
      obtain rfl : r₁.outcome ranThrough = result := Option.some.inj hresult
      refine ⟨reporter.addAll (r₁.outcome ranThrough).segments, ?_, rfl, reporter.notices_addAll _⟩
      change r₁.reporter.map _ = _
      rw [hr.reporter, hreporter]
      rfl

/-- A run of two segments, one of which nobody will ever see the end of, with a reporter. -/
def vigil : PlaybackRun :=
  (PlaybackRun.of ⟨"vigil", [⟨"main", "", 1, [.ofName "come", { Segment.ofName "stay" with
    endCriteria := [.of .actionComplete, .of (.path false ⟨"Dawn", .nonZero, 0, 0, 0⟩)] }]⟩]⟩
    .default "a-vigil" 0).withReporter (.of .inMemory)

/-- A second without anything to see. -/
def night : HostCall := .tick ⟨1.0, .empty, ⟨0, 1, 1⟩⟩

/-- A segment that nobody can tell the end of. -/
def riddle : Segment :=
  { Segment.ofName "riddle" with endCriteria := [.of (.custom "unknown" .null)] }

/-- The vigil, broken off after three nights. -/
def vigilOver : Turn PlaybackRun :=
  serveAll [night, night, night, .abort "enough", night] vigil (.of .empty)

/-- The vigil's reporter is told of both segments and of the end. Trying to break the vigil off
again, or waiting for another night, makes no difference. -/
theorem vigil_told_once :
    ∃ result reporter, vigilOver.subject.result = some result ∧
      result.segments.map SegmentResult.outcome = [.completed, .timedOut] ∧
      vigilOver.subject.reporter = some reporter ∧
      reporter.notices = result.segments.map .segment ++ [.finish] ∧
      ∀ env, serveAll [.abort "again", night] vigilOver.subject env =
        .still vigilOver.subject env := by
  have houtcomes : vigilOver.subject.result.map (fun result =>
      result.segments.map SegmentResult.outcome) = some [.completed, .timedOut] := by decide +kernel
  obtain ⟨result, hr, ho⟩ := Option.map_eq_some_iff.mp houtcomes
  -- the first four calls end the vigil, and those behind them say no more
  obtain ⟨-, hlife⟩ := ended_is_silent vigil
  obtain ⟨-, htold⟩ := hlife rfl [night, night, night, .abort "enough", night] (.of .empty)
  obtain ⟨reporter, hreporter, -, hnotices⟩ := htold result (.of .inMemory) hr rfl
  obtain ⟨hsilent, -⟩ := ended_is_silent vigilOver.subject
  exact ⟨result, reporter, hr, ho, hreporter, hnotices, fun env =>
    (hsilent result hr env).2.2 [.abort "again", night]⟩

end PlaybackRun

end Playtest
