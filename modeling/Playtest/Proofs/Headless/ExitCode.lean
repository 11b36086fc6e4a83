import Playtest.Headless.Session
import Playtest.Proofs.Abort
import Playtest.Proofs.Assignment.Lifecycle

/-!
# What a session leaves behind

A session ends with an exit code, and puts a result into the file of results or does not. Two ways
lead to a code: that of a playlist is read off its result, and that of an assignment off its status.
`Session.exit_code_agrees_with_record` says that they come to the same.

What is played against a recording is a run like any other, so that all that is known of runs is
known of its result:

* `PlaybackRun.Reachable` is carried through the frames (`Session.recorded_playFrames`), and a run
  that is still going on behind the last one is ended without success (`Session.endPlayback_ends`),
* `AssignmentRun.Reachable` is carried through the frames likewise (`Session.worked_workFrames`),
  and with it the status of an assignment and its result agree (`AssignmentRun.Consistent`).
  `Session.Worked` adds that its playback is one of the playlist that the assignment names.

`Session.Ends` is what both come to.
-/

namespace Playtest

open Playtest.Calendar Playtest.Resource Playtest.Scene

/-! ### Appending -/

namespace Resource.Tree

variable {t t' : Tree} {path text : String}

/-- The tree with a text **at the end of a file**. -/
inductive Grown (t : Tree) (text : String) : Tree → Prop
  | longer {place : Place} {content : String} (h : t.get? place = some (.text content)) :
      Grown t text (t.put place (.text (content ++ text)))
  | new {place : Place} (h : t.get? place = none) : Grown t text (t.put place (.text text))
  /-- What comes behind something that is no text is not looked at. -/
  | hidden {place : Place} {before : String} (h : t.get? place = some (.binary before)) :
      Grown t text t

/-- **Appending** puts the text at the end of what is there, if that is a text, and makes a file of
it if nothing is there. -/
theorem append_grown (h : t.append path text = .ok t') : Grown t text t' := by
  unfold append at h
  -- the path is fit for a file, and its directory is there
  cases hcheck : checkPath path with
  | error fault => rw [hcheck] at h; cases h
  | ok =>
  cases henter : t.enter (namesBefore path) with
  | error fault => rw [hcheck, henter] at h; cases h
  | ok =>
  rw [hcheck, henter] at h
  change (if namesNoFile path then _ else _ : Except FileFault Tree) = _ at h
  split at h
  · cases h
  cases hplace : t.follow [] (namesIn path) with
  | error fault => rw [hplace] at h; cases h
  | ok place =>
  rw [hplace] at h
  dsimp only [bind, Except.bind] at h
  -- what becomes of the tree depends on what is in the way
  cases hcontent : t.get? place with
  | none =>
    rw [hcontent] at h
    cases h
    exact .new hcontent
  | some content =>
    rw [hcontent] at h
    cases content with
    | directory => cases h
    | binary before =>
      cases h
      exact .hidden hcontent
    | text content =>
      cases h
      exact .longer hcontent

end Resource.Tree

/-! ### Runs against a recording -/

namespace PlaybackRun

variable {p : Playlist} {c : Config} {r : PlaybackRun}

/-- A run that **would hear** a signal, since it has listened from the start. -/
structure Recorded (p : Playlist) (c : Config) (r : PlaybackRun) : Prop where
  reachable : Reachable p c r
  listener : ∃ listener, r.listener = some listener ∧ listener.since = 0

/-- A tick does not end the listening. -/
theorem Recorded.tick (h : Recorded p c r) (b : Beat) (env : Environment) :
    Recorded p c (r.tick b env).subject := by
  refine ⟨h.reachable.tick b env, ?_⟩
  obtain ⟨listener, hl, hsince⟩ := h.listener
  cases hr : r.result with
  -- by whether the run goes on, since only then a tick looks at the signal
  | some result =>
    rw [tick_of_ended hr]
    exact ⟨listener, hl, hsince⟩
  | none =>
    refine ⟨listener.look b.signal, ?_, hsince⟩
    rw [(commands_tick hr b env).1, hl]
    rfl

/-- A signal ends a run that goes on, without success. -/
theorem Recorded.tick_of_sent {b : Beat} (h : Recorded p c r) (hr : r.result = none)
    (hsent : 0 < b.signal.sent) (env : Environment) :
    ∃ result, (r.tick b env).subject.result = some result ∧ result.success = false := by
  obtain ⟨listener, hl, hsince⟩ := h.listener
  have hears : listener.hears b.signal :=
    Abort.Listener.hears_iff.mpr (.inr (.inl (hsince ▸ hsent)))
  have hcause : Cause b r env Abort.message r.lists (r.opened b env) :=
    .signalled ⟨listener, hl, hears⟩
  obtain ⟨r', -, htick, -⟩ := tick_of_cause hr hcause
  rw [htick]
  exact ⟨_, rfl, rfl⟩

end PlaybackRun

namespace Headless.Session

variable {o : Options} {s : Surroundings} {c : Config} {frames : List Frame} {p : Playlist}
  {a : Assignment}

/-- Playing frames **keeps it a run that listens**. -/
theorem recorded_playFrames {run : PlaybackRun} (frameDelta : Float) (signal : Abort.Signal)
    (previous : Option Frame) (env : Environment) (h : PlaybackRun.Recorded p c run) :
    PlaybackRun.Recorded p c (playFrames frameDelta signal previous frames run env).subject := by
  induction frames generalizing previous run env with
  | nil => exact h
  | cons frame rest ih =>
    unfold playFrames
    dsimp only [Turn.subject_andThen]
    split
    · -- the run has ended with this frame, or is played on
      exact h.tick _ env
    · exact ih (some frame) _ (h.tick _ env)

/-- **When the recording has ended**, a run that goes on is ended without success, and one that has
ended stays as it is. -/
theorem endPlayback_ends {run : PlaybackRun} (h : PlaybackRun.Recorded p c run)
    (signal : Abort.Signal) (hsignal : signal.listeners ≠ 0) (last : Frame) (env : Environment) :
    ∃ result, (endPlayback signal last run env).subject.result = some result ∧
      PlaybackRun.Reachable p c (endPlayback signal last run env).subject ∧
        (run.result = none → result.success = false) := by
  unfold endPlayback
  cases hr : run.result with
  -- it has ended already
  | some result =>
    rw [if_pos (PlaybackRun.isFinished_of_ended hr)]
    exact ⟨result, hr, h.reachable, fun hn => by cases hn⟩
  -- somebody listens, so sending the signal is enough
  | none =>
    have habort : signal.abort = ({ signal with sent := signal.sent + 1 }, []) := if_neg hsignal
    rw [if_neg (PlaybackRun.not_isFinished hr), habort]
    dsimp only [Turn.subject_andThen]
    obtain ⟨result, hresult, hf⟩ := h.tick_of_sent
      (b := ⟨0.0, last, { signal with sent := signal.sent + 1 }⟩) hr (Nat.succ_pos _) env
    -- the signal is enough, and the attempt to end the run behind it comes to nothing
    rw [PlaybackRun.abort_of_ended hresult]
    exact ⟨result, hresult, h.reachable.tick _ env, fun _ => hf⟩

/-! ### Assignments against a recording -/

/-- An assignment that is **worked on** with what is on disk. -/
structure Worked (a : Assignment) (c : Config) (t : Tree) (r : AssignmentRun) : Prop where
  reachable : AssignmentRun.Reachable a c r
  loader : r.loader = ⟨c.resourceRoot, t⟩
  path : r.assignment.resourcePath = a.resourcePath
  playback : ∀ q, r.playback = some q →
    ∃ p, Loader.playlist ⟨c.resourceRoot, t⟩ a.resourcePath = .ok p ∧
      PlaybackRun.Reachable p c q

/-- **A tick keeps to what is on disk**, and to the playlist that was loaded from there. -/
theorem Worked.tick {t : Tree} {r : AssignmentRun} (h : Worked a c t r) (now : Instant) (b : Beat)
    (env : Environment) : Worked a c t (r.tick now b env).subject := by
  have hsteps := AssignmentRun.tick_steps now b r env
  have hreachable := h.reachable.tick now b env
  have hconfig : r.config = c := h.reachable.sound.config
  generalize (r.tick now b env).subject = r' at hsteps hreachable
  cases hsteps with
  -- by what the tick can do: only the one that begins brings a new playback
  | ended | early => exact h
  | unloadable | astray => exact ⟨hreachable, h.loader, h.path, h.playback⟩
  | begin hs hl hp =>
    refine ⟨hreachable, h.loader, h.path, ?_⟩
    rw [h.loader, h.path] at hl
    rintro q ⟨⟩
    exact ⟨_, hl, .fresh (hconfig ▸ hp)⟩
  | late hp =>
    refine ⟨hreachable, h.loader, h.path, ?_⟩
    obtain ⟨p, hl, hq⟩ := h.playback _ hp.playback
    rintro q ⟨⟩
    exact ⟨p, hl, hq.abort _ env⟩
  | goOn hp | complete hp | fail hp =>
    refine ⟨hreachable, h.loader, h.path, ?_⟩
    obtain ⟨p, hl, hq⟩ := h.playback _ hp.playback
    rintro q ⟨⟩
    exact ⟨p, hl, hq.tick b env⟩

/-- **Working through frames keeps it**, as far as the clock can be read. -/
theorem worked_workFrames {t : Tree} {run : AssignmentRun} {frameDelta clock : Float}
    {started : Instant} {previous : Option Frame} {env : Environment} {worked : Turn AssignmentRun}
    (h : Worked a c t run)
    (hw : workFrames frameDelta started previous clock frames run env = .ok worked) :
    Worked a c t worked.subject := by
  induction frames generalizing previous clock run env worked with
  | nil =>
    cases hw
    exact h
  | cons frame rest ih =>
    unfold workFrames at hw
    dsimp only at hw
    -- the clock cannot be read, or the work is over, or it goes on with the rest
    split at hw
    · cases hw
    · split at hw
      · cases hw
        exact h.tick _ _ env
      · generalize hrest : workFrames _ _ _ _ rest _ _ = behind at hw
        cases behind with
        | error isDuration => cases hw
        | ok t =>
          cases hw
          have hbehind := ih (h.tick _ _ env) hrest
          exact hbehind

/-- An update keeps it, too. -/
theorem Worked.update {t : Tree} {r : AssignmentRun} (h : Worked a c t r) (sent : Assignment)
    (env : Environment) : Worked a c t (r.update sent env).subject := by
  have hreachable := h.reachable.update sent env
  by_cases hc : AssignmentRun.Cancels sent r
  · -- a cancellation breaks off the playback that is there
    have hstops := AssignmentRun.update_of_cancels hc env
    generalize (r.update sent env).subject = r' at hstops hreachable
    cases hstops with
    | unplayed => exact ⟨hreachable, h.loader, h.path, h.playback⟩
    | broken hp reason =>
      obtain ⟨p, hl, hq⟩ := h.playback _ hp
      refine ⟨hreachable, h.loader, h.path, ?_⟩
      rintro q ⟨⟩
      exact ⟨p, hl, hq.abort reason env⟩
  · obtain ⟨remoteStatus, hr⟩ := AssignmentRun.update_of_not_cancels hc env
    rw [hr] at hreachable ⊢
    exact ⟨hreachable, h.loader, h.path, h.playback⟩

/-- An assignment with a result has played its playlist to the end. -/
theorem Worked.of_result {t : Tree} {r : AssignmentRun} {result : RunResult} (h : Worked a c t r)
    (hr : r.result = some result) :
    ∃ p q, Loader.playlist ⟨c.resourceRoot, t⟩ a.resourcePath = .ok p ∧
      PlaybackRun.Reachable p c q ∧ q.result = some result := by
  have hstanding := h.reachable.sound.standing
  rw [hr] at hstanding
  obtain ⟨q, hq, hresult⟩ := hstanding.of_result
  obtain ⟨p, hl, hreachable⟩ := h.playback q hq
  exact ⟨p, q, hl, hreachable, hresult⟩

/-- **When the recording has ended**, an assignment that goes on is cancelled. -/
theorem endAssignment_ends {t : Tree} {r : AssignmentRun} (h : Worked a c t r) (env : Environment) :
    let ended := (endAssignment r env).subject
    Worked a c t ended ∧ ended.status.isTerminal ∧ (¬ r.status.isTerminal →
      ended.status ≠ .completed) ∧
      (r.playback.isSome → ended.result.isSome) := by
  unfold endAssignment
  by_cases hs : r.status.isTerminal
  · rw [if_pos hs]
    -- it goes on, so it is cancelled, just as the remote side would do it
    exact ⟨h, hs, fun hn => absurd hs hn, h.reachable.sound.standing.result_isSome hs⟩
  · rw [if_neg hs]
    dsimp only [Turn.subject_andThen, Turn.subject_saying, Turn.env_saying]
    have hupdate := h.update { r.assignment with remoteStatus := some Status.cancelled.name } env
    have hcancels :
        AssignmentRun.Cancels { r.assignment with remoteStatus := some Status.cancelled.name } r :=
      ⟨rfl, ⟨_, rfl, by decide +kernel⟩, hs⟩
    have hstops := AssignmentRun.update_of_cancels hcancels env
    generalize (r.update _ env).subject = r' at hupdate hstops ⊢
    have hstatus := hstops.status
    refine ⟨hupdate, by rw [hstatus]; rfl, fun _ => by rw [hstatus]; decide, fun hp => ?_⟩
    -- what has a playback has a result when the cancellation is over
    cases hstops with
    | unplayed hnone =>
      rw [show r.playback = none from hnone] at hp
      cases hp
    | broken hq reason =>
      exact hupdate.reachable.sound.standing.result_isSome (by rw [hstatus]; rfl) rfl

/-! ### The ways of a session -/

/-- The run of a playlist, before the first frame. -/
def runOf (o : Options) (s : Surroundings) (c : Config) (p : Playlist) : PlaybackRun :=
  ((PlaybackRun.of p c (o.runId.getD s.runId) s.startedAt).withListener
    Abort.Signal.fresh.listen.1).withReporter (.of o.reporter)

/-- The run of a playlist **after the last frame**. -/
def framesPlayed (o : Options) (s : Surroundings) (c : Config) (frames : List Frame)
    (p : Playlist) : Turn PlaybackRun :=
  playFrames o.frameDelta Abort.Signal.fresh.listen.2 none frames (runOf o s c p) environment

/-- The assignment **after the last frame**, unless the clock has left its range. -/
def framesWorked (o : Options) (s : Surroundings) (c : Config) (frames : List Frame)
    (a : Assignment) : Except Bool (Turn AssignmentRun) :=
  workFrames o.frameDelta s.now none 0.0 frames
    ((AssignmentRun.of a c s.files s.mark s.startedAt).withReporter (.of o.reporter)) environment

/-- The session is asked for a playlist that there is. -/
structure PlaysPlaylist (o : Options) (s : Surroundings) (c : Config) (frames : List Frame)
    (p : Playlist) : Prop where
  settings : settings o s.files = .ok c
  frames : framesIn s.files o.frames = .ok frames
  playlist : ∃ path, o.sequence = some path ∧ Loader.playlist ⟨c.resourceRoot, s.files⟩ path = .ok p

/-- The session is asked for an assignment that can be read. -/
structure WorksOn (o : Options) (s : Surroundings) (c : Config) (frames : List Frame)
    (a : Assignment) : Prop where
  settings : settings o s.files = .ok c
  frames : framesIn s.files o.frames = .ok frames
  sequence : o.sequence = none
  assignment : ∃ path json messages, o.assignment = some path ∧ s.files.read path = .ok json ∧
    Assignment.decoder.ofText json = .ok (a, messages)

/-- Nothing has been put into the file of results, and the exit code says so. -/
structure Silent (s : Surroundings) (out : SessionOutcome) : Prop where
  stored : out.stored = none
  files : out.files = s.files
  code : out.ending.exitCode ≠ 0 ∧ out.ending.exitCode ≠ 1

/-- **How a session ends**: in silence, or with a result in the file of results and the code that
goes with it. -/
inductive Ends (s : Surroundings) (P : RunResult → Prop) (out : SessionOutcome) : Prop
  | silent (h : Silent s out)
  | stored {result : RunResult} (hs : out.stored = some result)
      (hf : result.appendTo s.files s.resultsFile = .ok out.files)
      (he : out.ending = if result.success then .success else .runFailed) (hp : P result)

section Silent

variable (s : Surroundings) (messages : List LogMessage)

theorem silent_nothingToRun : Silent s (stop s .nothingToRun messages) :=
  ⟨rfl, rfl, by simp [stop, Ending.exitCode]⟩

theorem silent_loadFailure : Silent s (stop s .loadFailure messages) :=
  ⟨rfl, rfl, by simp [stop, Ending.exitCode]⟩

theorem silent_error (e : SessionError) : Silent s (stop s (.error e) messages) :=
  ⟨rfl, rfl, by simp [stop, Ending.exitCode]⟩

theorem silent_clockOverflow (isDuration : Bool) :
    Silent s (stop s (.clockOverflow isDuration) messages) :=
  ⟨rfl, rfl, by simp [stop, Ending.exitCode]⟩

/-- An assignment without a result ends in silence, unless it has completed. -/
theorem silent_endingWithout {status : Status} (h : status ≠ .completed) :
    Silent s (stop s (endingWithout status) messages) := by
  cases status with
  | completed => exact absurd rfl h
  | failed => exact silent_loadFailure s messages
  | pending | running | cancelled => exact silent_nothingToRun s messages

end Silent

/-- If the file of results cannot be written, that is the error, and nothing is put there. -/
theorem store_of_error {result : RunResult} {fault : FileFault}
    (h : result.appendTo s.files s.resultsFile = .error fault) (isSuccess : Bool) (printed : String)
    (messages : List LogMessage) :
    store s result isSuccess printed messages =
      ⟨.error (.resultUnwritten s.resultsFile fault), none, s.files, printed, messages⟩ := by
  unfold store
  dsimp only
  rw [h]

/-- If it can, the result is put at its end, and decides the code. -/
theorem store_of_ok {result : RunResult} {files : Tree}
    (h : result.appendTo s.files s.resultsFile = .ok files) (isSuccess : Bool) (printed : String)
    (messages : List LogMessage) : ∃ messages', store s result isSuccess printed messages =
      ⟨if isSuccess then .success else .runFailed, some result, files, printed, messages'⟩ := by
  unfold store
  dsimp only
  rw [h]
  exact ⟨_, rfl⟩

/-- Storing a result ends a session in one of the two ways. -/
theorem store_ends {P : RunResult → Prop} {result : RunResult} (hp : P result) (printed : String)
    (messages : List LogMessage) : Ends s P (store s result result.success printed messages) := by
  cases hf : result.appendTo s.files s.resultsFile with
  | error fault =>
    rw [store_of_error hf]
    exact .silent ⟨rfl, rfl, by simp [Ending.exitCode]⟩
  | ok files =>
    obtain ⟨messages', hstore⟩ := store_of_ok hf result.success printed messages
    rw [hstore]
    exact .stored rfl hf rfl hp

/-- The result of a run of a playlist. -/
def Final (p : Playlist) (c : Config) (result : RunResult) : Prop :=
  ∃ q, PlaybackRun.Reachable p c q ∧ q.result = some result

/-- **A playlist leaves the result of its run**, which is no success if the frames did not
suffice. -/
theorem playPlaylist_ends (o : Options) (s : Surroundings) (c : Config) (frames : List Frame)
    (p : Playlist) : ∃ result printed messages,
      playPlaylist o s c frames p = store s result result.success printed messages ∧
        Final p c result ∧
        ((framesPlayed o s c frames p).subject.result = none → result.success = false) := by
  -- the run listens from the start, and so through all frames
  have hfresh : PlaybackRun.Recorded p c (runOf o s c p) :=
    ⟨.fresh (((PlaybackRun.Fresh.of ..).withListener _).withReporter _), _, rfl, rfl⟩
  have hplayed : PlaybackRun.Recorded p c (framesPlayed o s c frames p).subject :=
    recorded_playFrames _ _ none _ hfresh
  obtain ⟨result, hresult, hreachable, hunfinished⟩ := endPlayback_ends hplayed
    Abort.Signal.fresh.listen.2 (by decide) (frames.getLast?.getD .empty)
    (framesPlayed o s c frames p).env
  have hstore : ∃ printed messages,
      playPlaylist o s c frames p = store s result result.success printed messages := by
    unfold playPlaylist
    dsimp only [Turn.subject_andThen]
    split
    · -- a run that was ended has a result, so this is the one that is stored
      next hnone => exact absurd (hresult.symm.trans hnone) (Option.some_ne_none _)
    · next result' hsome =>
      obtain rfl := Option.some.inj (hresult.symm.trans hsome)
      exact ⟨_, _, rfl⟩
  obtain ⟨printed, messages, hstore⟩ := hstore
  exact ⟨result, printed, messages, hstore, ⟨_, hreachable, hresult⟩, hunfinished⟩

/-- Work that breaks off stops the session, and says why. -/
theorem playAssignment_of_overflow {isDuration : Bool}
    (h : framesWorked o s c frames a = .error isDuration) (messages : List LogMessage) :
    ∃ messages', playAssignment o s c frames a messages =
      stop s (.clockOverflow isDuration) messages' := by
  unfold framesWorked at h
  unfold playAssignment
  dsimp only
  rw [h]
  exact ⟨_, rfl⟩

/-- Otherwise the assignment is ended, and its result is stored if it has one. -/
theorem playAssignment_of_ok {worked : Turn AssignmentRun}
    (h : framesWorked o s c frames a = .ok worked)
    (messages : List LogMessage) : ∃ printed messages',
      let ended := (endAssignment worked.subject worked.env).subject
      playAssignment o s c frames a messages =
        match ended.result with
        | none => stop s (endingWithout ended.status) messages'
        | some result => store s result (ended.status == .completed) printed messages' := by
  unfold framesWorked at h
  unfold playAssignment
  dsimp only
  rw [h]
  exact ⟨_, _, rfl⟩

/-- An assignment leaves the result of its playback, if it was ever begun. -/
theorem playAssignment_ends (o : Options) (s : Surroundings) (c : Config) (frames : List Frame)
    (a : Assignment) (messages : List LogMessage) :
    Silent s (playAssignment o s c frames a messages) ∧
        (∀ worked, framesWorked o s c frames a = .ok worked → worked.subject.playback = none) ∨
      ∃ result printed messages',
        playAssignment o s c frames a messages = store s result result.success printed messages' ∧
          (∃ p, Loader.playlist ⟨c.resourceRoot, s.files⟩ a.resourcePath = .ok p ∧
            Final p c result) ∧
            ∀ worked, framesWorked o s c frames a = .ok worked →
              ¬ worked.subject.status.isTerminal →
              result.success = false := by
  have hfresh : Worked a c s.files
      ((AssignmentRun.of a c s.files s.mark s.startedAt).withReporter (.of o.reporter)) :=
    ⟨.withReporter (.of ..) _, rfl, rfl, fun q hq => by cases hq⟩
  -- by whether the clock could be read at every frame
  cases hw : framesWorked o s c frames a with
  | error isDuration =>
    obtain ⟨messages', hout⟩ := playAssignment_of_overflow hw messages
    rw [hout]
    exact .inl ⟨silent_clockOverflow s messages' isDuration, fun worked h => by cases h⟩
  | ok worked =>
    obtain ⟨printed, messages', hout⟩ := playAssignment_of_ok hw messages
    obtain ⟨hended, hterminal, hunfinished, hbegun⟩ :=
      endAssignment_ends (worked_workFrames hfresh hw) worked.env
    dsimp only at hout hended hterminal hunfinished hbegun
    generalize (endAssignment worked.subject worked.env).subject = ended at *
    have hconsistent := hended.reachable.sound.consistent
    cases hr : ended.result with
    -- without a result nothing was ever played
    | none =>
      rw [hr] at hout hbegun
      have hstatus : ended.status ≠ .completed := by
        intro hs
        obtain ⟨result, hresult, -⟩ := hconsistent.completed.mp hs
        rw [hr] at hresult
        cases hresult
      refine .inl ⟨?_, ?_⟩
      · rw [hout]
        exact silent_endingWithout s messages' hstatus
      · rintro _ ⟨⟩
        cases hp : worked.subject.playback with
        | none => rfl
        | some q =>
          rw [hp] at hbegun
          exact absurd (hbegun rfl) (by decide)
    | some result =>
      rw [hr] at hout
      -- status and result agree
      have hiff : ended.status = .completed ↔ result.success = true := by
        rw [hconsistent.completed, hr]
        exact ⟨fun ⟨_, h, hs⟩ => Option.some.inj h ▸ hs, fun hs => ⟨result, rfl, hs⟩⟩
      have hcode : (ended.status == .completed) = result.success := by
        rw [Bool.eq_iff_iff, beq_iff_eq, hiff]
      refine .inr ⟨result, printed, messages', ?_, ?_, ?_⟩
      · rw [hout, ← hcode]
      · obtain ⟨p, q, hl, hreachable, hresult⟩ := hended.of_result hr
        exact ⟨p, hl, q, hreachable, hresult⟩
      · rintro _ ⟨⟩ hs
        exact eq_false_of_ne_true fun hsuccess => hunfinished hs (hiff.mpr hsuccess)

/-- A session that is asked for a playlist plays it, unless there is nothing to play or nothing to
play against. -/
theorem run_of_playsPlaylist (h : PlaysPlaylist o s c frames p) :
    Silent s (run o s) ∧ (frames = [] ∨ p.segments = []) ∨
      run o s = playPlaylist o s c frames p := by
  obtain ⟨path, hpath, hl⟩ := h.playlist
  unfold run
  rw [h.settings, h.frames, hpath]
  cases frames with
  | nil => exact .inl ⟨silent_nothingToRun s _, .inl rfl⟩
  | cons frame rest =>
    dsimp only
    -- whether there is anything to play is known once the playlist is loaded
    unfold playSequence
    rw [hl]
    dsimp only
    split
    · next hempty => exact .inl ⟨silent_nothingToRun s _, .inr (List.isEmpty_iff.mp hempty)⟩
    · exact .inr rfl

/-- The same for an assignment, which needs frames to be worked on with. -/
theorem run_of_worksOn (h : WorksOn o s c frames a) :
    Silent s (run o s) ∧ frames = [] ∨ ∃ messages,
      run o s = playAssignment o s c frames a messages := by
  obtain ⟨path, json, messages, hpath, hread, hdecoded⟩ := h.assignment
  unfold run
  rw [h.settings, h.frames, h.sequence, hpath]
  cases frames with
  | nil => exact .inl ⟨silent_nothingToRun s _, rfl⟩
  | cons frame rest =>
    refine .inr ⟨messages, ?_⟩
    dsimp only
    unfold readAssignment
    rw [hread]
    dsimp only
    rw [hdecoded]

/-- A session that is asked for anything else ends in silence. -/
theorem run_cases (o : Options) (s : Surroundings) :
    Silent s (run o s) ∨ (∃ c frames p, PlaysPlaylist o s c frames p) ∨
      ∃ c frames a, WorksOn o s c frames a := by
  -- step by step, as the session does it: settings, frames, what is asked for, and what is found
  cases hc : settings o s.files with
  | error e =>
    unfold run
    rw [hc]
    exact .inl (silent_error s _ e)
  | ok c =>
  cases hf : framesIn s.files o.frames with
  | error e =>
    unfold run
    rw [hc, hf]
    exact .inl (silent_error s _ e)
  | ok frames =>
  -- a playlist comes first if both are asked for
  cases hs : o.sequence with
  | some path =>
    cases hl : Loader.playlist ⟨c.resourceRoot, s.files⟩ path with
    | ok p => exact .inr (.inl ⟨c, frames, p, hc, hf, path, hs, hl⟩)
    | error e =>
      unfold run
      rw [hc, hf, hs]
      cases frames with
      | nil => exact .inl (silent_nothingToRun s _)
      | cons frame rest =>
        dsimp only
        unfold playSequence
        rw [hl]
        exact .inl (silent_loadFailure s _)
  | none =>
  cases ha : o.assignment with
  | none =>
    unfold run
    rw [hc, hf, hs, ha]
    cases frames <;> exact .inl (silent_nothingToRun s _)
  | some path =>
    -- what is no file, or holds no assignment, is an error
    by_cases hread : ∃ json a messages, s.files.read path = .ok json ∧
        Assignment.decoder.ofText json = .ok (a, messages)
    · obtain ⟨json, a, messages, hread, hdecoded⟩ := hread
      exact .inr (.inr ⟨c, frames, a, hc, hf, hs, path, json, messages, ha, hread, hdecoded⟩)
    · unfold run
      rw [hc, hf, hs, ha]
      cases frames with
      | nil => exact .inl (silent_nothingToRun s _)
      | cons frame rest =>
        dsimp only
        unfold readAssignment
        split
        · exact .inl (silent_error s _ _)
        next json hjson =>
        split
        · exact .inl (silent_error s _ _)
        next a messages hdecoded => exact absurd ⟨json, a, messages, hjson, hdecoded⟩ hread

/-! ### Exit codes -/

/-- A result **has been put** into the file of results, at its end. -/
structure Appended (s : Surroundings) (out : SessionOutcome) (result : RunResult) : Prop where
  stored : out.stored = some result
  files : result.appendTo s.files s.resultsFile = .ok out.files
  grown : Tree.Grown s.files result.line out.files

/-- What a session leaves behind in whatever way it ends. -/
theorem Ends.agree {P : RunResult → Prop} {out : SessionOutcome} (h : Ends s P out) :
    (out.ending.exitCode = 0 ↔ ∃ result, Appended s out result ∧ result.success = true) ∧
      (out.ending.exitCode = 1 ↔ ∃ result, Appended s out result ∧ result.success = false) ∧
        (out.ending.exitCode ≠ 0 → out.ending.exitCode ≠ 1 → out.stored = none ∧
          out.files = s.files) ∧
          ∀ result, out.stored = some result → P result := by
  cases h with
  -- nothing is stored, and neither of the two codes is there
  | silent h =>
    have hnone : ∀ result, out.stored ≠ some result := by
      intro result hs
      rw [h.stored] at hs
      cases hs
    refine ⟨iff_of_false h.code.1 ?_, iff_of_false h.code.2 ?_, fun _ _ => ⟨h.stored, h.files⟩,
      fun result hs => absurd hs (hnone result)⟩
    · rintro ⟨result, ha, -⟩
      exact hnone result ha.stored
    · rintro ⟨result, ha, -⟩
      exact hnone result ha.stored
  -- the result is the only one that was put there, and it decides the code
  | @stored result hs hf he hp =>
    have happended : Appended s out result := ⟨hs, hf, Tree.append_grown hf⟩
    have honly : ∀ result', Appended s out result' → result' = result := by
      intro result' ha
      exact Option.some.inj (ha.stored.symm.trans hs)
    have hcode : (out.ending.exitCode = 0 ↔ result.success = true) ∧
        (out.ending.exitCode = 1 ↔ result.success = false) := by
      rw [he]
      cases result.success <;> decide
    refine ⟨hcode.1.trans ⟨fun h => ⟨result, happended, h⟩, ?_⟩,
      hcode.2.trans ⟨fun h => ⟨result, happended, h⟩, ?_⟩, fun h0 h1 => ?_, fun result' hs' => ?_⟩
    · rintro ⟨result', ha, h⟩
      exact honly result' ha ▸ h
    · rintro ⟨result', ha, h⟩
      exact honly result' ha ▸ h
    · rw [Ne, hcode.1] at h0
      rw [Ne, hcode.2] at h1
      exact absurd (eq_false_of_ne_true h0) h1
    · exact Option.some.inj (hs.symm.trans hs') ▸ hp

/-- What comes of a playlist. -/
theorem ends_of_playsPlaylist (h : PlaysPlaylist o s c frames p) :
    Ends s (fun result => Final p c result ∧
      ((framesPlayed o s c frames p).subject.result = none →
        result.success = false)) (run o s) := by
  rcases run_of_playsPlaylist h with ⟨hsilent, -⟩ | hrun
  · exact .silent hsilent
  · obtain ⟨result, printed, messages, hstore, hresult⟩ := playPlaylist_ends o s c frames p
    rw [hrun, hstore]
    exact store_ends hresult printed messages

/-- What comes of an assignment. -/
theorem ends_of_worksOn (h : WorksOn o s c frames a) :
    Ends s (fun result =>
      (∃ p, Loader.playlist ⟨c.resourceRoot, s.files⟩ a.resourcePath = .ok p ∧ Final p c result) ∧
        ∀ worked, framesWorked o s c frames a = .ok worked → ¬ worked.subject.status.isTerminal →
          result.success = false) (run o s) := by
  rcases run_of_worksOn h with ⟨hsilent, -⟩ | ⟨messages, hrun⟩
  · exact .silent hsilent
  · rw [hrun]
    rcases playAssignment_ends o s c frames a messages with
      ⟨hsilent, -⟩ | ⟨result, printed, messages', hstore, hresult⟩
    · exact .silent hsilent
    · rw [hstore]
      exact store_ends hresult printed messages'

/-- The result of what the session was asked to play. -/
def Played (o : Options) (s : Surroundings) (result : RunResult) : Prop :=
  ∃ c frames p, Final p c result ∧
    (PlaysPlaylist o s c frames p ∨
      ∃ a, WorksOn o s c frames a ∧
        Loader.playlist ⟨c.resourceRoot, s.files⟩ a.resourcePath = .ok p)

/-- What is known of the result may be weakened. -/
theorem Ends.mono {P Q : RunResult → Prop} {out : SessionOutcome} (h : Ends s P out)
    (hPQ : ∀ result, P result → Q result) : Ends s Q out := by
  cases h with
  | silent h => exact .silent h
  | stored hs hf he hp => exact .stored hs hf he (hPQ _ hp)

/-- **How any session ends.** -/
theorem run_ends (o : Options) (s : Surroundings) : Ends s (Played o s) (run o s) := by
  rcases run_cases o s with hsilent | ⟨c, frames, p, h⟩ | ⟨c, frames, a, h⟩
  · exact .silent hsilent
  · refine (ends_of_playsPlaylist h).mono ?_
    rintro result ⟨hfinal, -⟩
    exact ⟨c, frames, p, hfinal, .inl h⟩
  · refine (ends_of_worksOn h).mono ?_
    rintro result ⟨⟨p, hl, hfinal⟩, -⟩
    exact ⟨c, frames, p, hfinal, .inr ⟨a, h, hl⟩⟩

/-- Any text can be put at the end of the file of results. -/
def Writable (s : Surroundings) : Prop :=
  ∀ text, ∃ files, s.files.append s.resultsFile text = .ok files

/-- A result that is to be stored is stored if the file can be written. -/
theorem appended_of_store {out : SessionOutcome} {result : RunResult} {isSuccess : Bool}
    {printed : String} {messages : List LogMessage} (hw : Writable s)
    (hout : out = store s result isSuccess printed messages) : Appended s out result := by
  obtain ⟨files, hfiles⟩ := hw result.line
  obtain ⟨messages', hstore⟩ := store_of_ok hfiles isSuccess printed messages
  rw [hout, hstore]
  exact ⟨rfl, hfiles, Tree.append_grown hfiles⟩

/-- **The exit code and the file of results agree.** A session ends with 0 if it has put a result
into the file that is a success, with 1 if it has put one there that is none, and with any other
code if it has put nothing there. What it puts there is the result of a run of what it was asked to
play, of which every segment has ended. What has not ended when the last frame was played never
makes for 0. If the file can be written, a result is put there whenever something has begun. -/
theorem exit_code_agrees_with_record (o : Options) (s : Surroundings) :
    let out := run o s
    (out.ending.exitCode = 0 ↔ ∃ result, Appended s out result ∧ result.success = true) ∧
    (out.ending.exitCode = 1 ↔ ∃ result, Appended s out result ∧ result.success = false) ∧
    (out.ending.exitCode ≠ 0 → out.ending.exitCode ≠ 1 → out.stored = none ∧ out.files = s.files) ∧
    (∀ result, out.stored = some result → ∃ c frames p q,
      (PlaysPlaylist o s c frames p ∨
        ∃ a, WorksOn o s c frames a ∧
          Loader.playlist ⟨c.resourceRoot, s.files⟩ a.resourcePath = .ok p) ∧
      PlaybackRun.Reachable p c q ∧ q.result = some result ∧
      result.segments = q.segments.map SegmentRun.result ∧ ∀ t ∈ q.segments, t.state.isTerminal) ∧
    (∀ c frames p, PlaysPlaylist o s c frames p →
      ((framesPlayed o s c frames p).subject.result = none → out.ending.exitCode ≠ 0) ∧
      (frames ≠ [] → p.segments ≠ [] → Writable s → ∃ result, Appended s out result)) ∧
    ∀ c frames a worked, WorksOn o s c frames a → framesWorked o s c frames a = .ok worked →
      (¬ worked.subject.status.isTerminal → out.ending.exitCode ≠ 0) ∧
      (frames ≠ [] → worked.subject.playback.isSome → Writable s → ∃ result,
        Appended s out result) := by
  obtain ⟨hzero, hone, hother, hplayed⟩ := (run_ends o s).agree
  refine ⟨hzero, hone, hother, fun result hs => ?_,
    fun c frames p h => ⟨fun hn hcode => ?_, fun hf hp hw => ?_⟩,
    fun c frames a worked h hworked => ⟨fun hn hcode => ?_, fun hf hp hw => ?_⟩⟩
  · -- the result is that of a reachable run, and there all segments have ended
    obtain ⟨c, frames, p, ⟨q, hreachable, hresult⟩, hasked⟩ := hplayed result hs
    exact ⟨c, frames, p, q, hasked, hreachable, hresult, hreachable.sound.allEnded hresult⟩
  · -- a code of 0 means success, and what the last frame left unfinished is none
    obtain ⟨result, ha, hsuccess⟩ := hzero.mp hcode
    obtain ⟨-, -, -, hstored⟩ := (ends_of_playsPlaylist h).agree
    obtain ⟨-, hunfinished⟩ := hstored result ha.stored
    exact absurd ((hunfinished hn).symm.trans hsuccess) (by decide)
  · -- something is played, and its result is stored
    rcases run_of_playsPlaylist h with ⟨-, hempty⟩ | hrun
    · exact absurd hempty (not_or.mpr ⟨hf, hp⟩)
    · obtain ⟨result, printed, messages, hstore, -⟩ := playPlaylist_ends o s c frames p
      exact ⟨result, appended_of_store hw (hrun.trans hstore)⟩
  · obtain ⟨result, ha, hsuccess⟩ := hzero.mp hcode
    obtain ⟨-, -, -, hstored⟩ := (ends_of_worksOn h).agree
    obtain ⟨-, hunfinished⟩ := hstored result ha.stored
    exact absurd ((hunfinished worked hworked hn).symm.trans hsuccess) (by decide)
  · -- something is worked on, and it had begun to play
    rcases run_of_worksOn h with ⟨-, hempty⟩ | ⟨messages, hrun⟩
    · exact absurd hempty hf
    · rcases playAssignment_ends o s c frames a messages with
        ⟨-, hnone⟩ | ⟨result, printed, messages', hstore, -⟩
      · rw [hnone worked hworked] at hp
        cases hp
      · exact ⟨result, appended_of_store hw (hrun.trans hstore)⟩

/-! A walk takes two frames. -/

/-- The command line for a walk. -/
def walk : Options where
  sequence := some "quick"
  assignment := none
  frames := "walk.jsonl"
  config := none
  resourceRoot := none
  timeout := none
  frameDelta := 1.0
  reporter := .default
  noProgress := true
  runId := some "a-walk"

/-- The surroundings of a walk, with a recording of some frames in which there is nothing to see. -/
def outdoors (frames : Nat) : Surroundings where
  files := AssignmentRun.shelf ++
    [(["walk.jsonl"], .text (String.join (List.replicate frames "\x7b\x7d\n")))]
  resultsPath := none
  runId := ""
  mark := ""
  startedAt := 0
  now := .epoch

/-- With two frames the walk succeeds, with one it is ended before, and without any there is
none. -/
theorem walk_takes_two_frames :
    (∃ result, Appended (outdoors 2) (run walk (outdoors 2)) result ∧ result.success = true) ∧
      (∃ result, Appended (outdoors 1) (run walk (outdoors 1)) result ∧ result.success = false) ∧
        (run walk (outdoors 0)).stored = none := by
  have hcodes : (run walk (outdoors 2)).ending.exitCode = 0 ∧
      (run walk (outdoors 1)).ending.exitCode = 1 ∧
      (run walk (outdoors 0)).ending.exitCode = 2 := by decide +kernel
  obtain ⟨htwo, hone, hnone⟩ := hcodes
  obtain ⟨hzero, -⟩ := exit_code_agrees_with_record walk (outdoors 2)
  obtain ⟨-, hfailed, -⟩ := exit_code_agrees_with_record walk (outdoors 1)
  obtain ⟨-, -, hother, -⟩ := exit_code_agrees_with_record walk (outdoors 0)
  exact ⟨hzero.mp htwo, hfailed.mp hone, (hother (by rw [hnone]; decide) (by rw [hnone]; decide)).1⟩

end Headless.Session

end Playtest
