import Playtest.Assignment.Run
import Playtest.Proofs.Playback.Reachable

/-!
# The course of an assignment

Two sides work on an assignment: ticks load its playlist and play it, and updates from the remote
side may cancel it. What one call of either side makes of it is said once,

* `AssignmentRun.Steps` lists what a tick can do, and `AssignmentRun.tick_steps` says that this is
  all,
* `AssignmentRun.Cancels` are the updates that count. One that does leads to `AssignmentRun.Stops`
  (`AssignmentRun.update_of_cancels`), and any other is only taken note of
  (`AssignmentRun.update_of_not_cancels`),

and `AssignmentRun.Sound` is the invariant of both: how the status, the playback and the result of
an assignment go together (`AssignmentRun.Standing`). It rests on what is known about the playback
alone, which is a run of the playlist that was loaded (`PlaybackRun.Reachable`), however often it
was ticked.
-/

namespace Playtest

open Playtest.Calendar Playtest.Json

/-- What has not ended has not begun or is running. -/
theorem Status.pending_or_running {s : Status} (h : ¬ s.isTerminal) :
    s = .pending ∨ s = .running := by
  cases s with
  | pending => exact .inl rfl
  | running => exact .inr rfl
  | completed | cancelled | failed => exact absurd rfl h

namespace AssignmentRun

variable {now : Instant} {b : Beat} {env : Environment} {c : Config} {r r' : AssignmentRun}

/-! ### What becomes of an assignment -/

/-- The assignment with another status. -/
def turned (status : Status) (r : AssignmentRun) : AssignmentRun :=
  { r with assignment := { r.assignment with status } }

/-- The assignment after it has failed for a reason. -/
def failedWith (reason : String) (r : AssignmentRun) : AssignmentRun :=
  { r with details := some (Report.errorDetails reason) }.turned .failed

/-- The assignment after its playback was broken off. -/
def stoppedAt (p : PlaybackRun) (r : AssignmentRun) : AssignmentRun :=
  { r with playback := some p, result := p.result }

/-- The assignment after its playback has played a tick. -/
def playedOn (p : PlaybackRun) (r : AssignmentRun) : AssignmentRun :=
  { r with playback := some p, elapsed := p.elapsed }

/-- The assignment with what the remote side has said about it. -/
def told (remoteStatus : Option String) (r : AssignmentRun) : AssignmentRun :=
  { r with assignment := { r.assignment with remoteStatus } }

/-- What is said about an assignment whose time is up. -/
def lateness (timeout : Float) : String := s!"timed out after {Number.display timeout}s"

/-- Turning an assignment to a status does so whether anybody is told or not. -/
theorem turnTo_subject (status : Status) (r : AssignmentRun) (env : Environment) :
    (turnTo status r env).subject = r.turned status := by
  unfold turnTo
  split
  · next h =>
    -- turning to the status that it has changes nothing
    subst h
    rfl
  · rfl

/-- A failure leaves its reason and the status. -/
theorem failWith_subject (reason : String) (r : AssignmentRun) (env : Environment) :
    (failWith reason r env).subject = r.failedWith reason :=
  turnTo_subject ..

/-! ### Ticks -/

/-- There is time left for an assignment, as far as it knows. -/
def HasTime (r : AssignmentRun) : Prop :=
  ∀ timeout, r.assignment.timeout = some timeout → ¬ timeout ≤ r.elapsed

/-- An assignment is **being played**. -/
structure Plays (r : AssignmentRun) (p : PlaybackRun) : Prop where
  status : r.status = .running
  playback : r.playback = some p

/-- **What a tick can do** to an assignment. -/
inductive Steps (now : Instant) (b : Beat) (env : Environment) (r : AssignmentRun) :
    AssignmentRun → Prop
  | ended (hs : r.status.isTerminal) : Steps now b env r r
  | early (hs : r.status = .pending) (hd : ¬ r.assignment.isDue now) : Steps now b env r r
  | unloadable (hs : r.status = .pending) (reason : String) :
      Steps now b env r (r.failedWith reason)
  | begin {playlist : Playlist} {p : PlaybackRun} (hs : r.status = .pending)
      (hl : r.loader.playlist r.assignment.resourcePath = .ok playlist)
      (hp : PlaybackRun.Fresh playlist r.config p) :
      Steps now b env r ({ r with playback := some p }.turned .running)
  /-- There is nothing to play. No assignment comes to this. -/
  | astray (hs : r.status = .running) (hp : r.playback = none) :
      Steps now b env r (r.turned .failed)
  | late {p : PlaybackRun} {timeout : Float} (h : Plays r p)
      (ht : r.assignment.timeout = some timeout) (hle : timeout ≤ r.elapsed) :
      Steps now b env r
        ((r.stoppedAt (p.abort (lateness timeout) env).subject).failedWith (lateness timeout))
  | goOn {p : PlaybackRun} (h : Plays r p) (ht : r.HasTime)
      (hr : (p.tick b env).subject.result = none) :
      Steps now b env r (r.playedOn (p.tick b env).subject)
  | complete {p : PlaybackRun} {result : RunResult} (h : Plays r p) (ht : r.HasTime)
      (hr : (p.tick b env).subject.result = some result) (hs : result.success) :
      Steps now b env r
        ({ r.playedOn (p.tick b env).subject with result := some result }.turned .completed)
  | fail {p : PlaybackRun} {result : RunResult} (h : Plays r p) (ht : r.HasTime)
      (hr : (p.tick b env).subject.result = some result) (hs : ¬ result.success)
      (details : Option Value) :
      Steps now b env r
        ({ r.playedOn (p.tick b env).subject with result := some result, details }.turned .failed)

/-- The tick on which an assignment is due loads its playlist, or fails to. -/
theorem start_steps (now : Instant) (b : Beat) (env : Environment) (hs : r.status = .pending) :
    Steps now b env r (start r env).subject := by
  unfold start
  dsimp only
  split
  · dsimp only [Turn.subject_andThen, Turn.subject_saying]
    rw [failWith_subject]
    exact .unloadable hs _
  · -- the playlist is there, and whatever is played of it begins fresh
    next playlist hl =>
    rw [turnTo_subject]
    -- a reporter is all that a playback may be given before it begins
    split
    · exact .begin hs hl ((PlaybackRun.Fresh.of ..).withReporter _)
    · exact .begin hs hl (.of ..)

/-- When the time is up, the playback is broken off and the assignment fails with the same words. -/
theorem timeOut_subject (timeout : Float) (p : PlaybackRun) (r : AssignmentRun)
    (env : Environment) :
    (timeOut timeout p r env).subject =
      (r.stoppedAt (p.abort (lateness timeout) env).subject).failedWith (lateness timeout) :=
  failWith_subject ..

/-- A tick with time left is played, and what comes of it decides how the assignment goes on. -/
theorem play_steps {p : PlaybackRun} (now : Instant) (b : Beat) (env : Environment) (h : Plays r p)
    (ht : r.HasTime) : Steps now b env r (play b p r env).subject := by
  unfold play
  dsimp only [Turn.subject_andThen]
  split
  · -- the playback has ended with this tick
    next result hr =>
    unfold settle
    split
    · next hs =>
      rw [turnTo_subject]
      exact .complete h ht hr hs
    · next hs =>
      rw [turnTo_subject]
      exact .fail h ht hr hs _
  · next hr => exact .goOn h ht hr

/-- A running assignment looks at its time first and plays then. -/
theorem work_steps (now : Instant) (b : Beat) (env : Environment) (hs : r.status = .running) :
    Steps now b env r (work b r env).subject := by
  unfold work
  split
  · next hp =>
    rw [turnTo_subject]
    exact .astray hs hp
  next p hp =>
  split
  · next timeout ht =>
    -- a limit counts only if it has been reached, which is what the filter asks
    obtain ⟨ht, hle⟩ := Option.filter_eq_some_iff.mp ht
    rw [timeOut_subject]
    exact .late ⟨hs, hp⟩ ht (of_decide_eq_true hle)
  · next ht =>
    -- no limit is left by the filter, so there is time
    refine play_steps now b env ⟨hs, hp⟩ fun timeout htimeout hle => ?_
    rw [htimeout, Option.filter_some, if_pos (decide_eq_true hle)] at ht
    cases ht

/-- **What a tick does.** -/
theorem tick_steps (now : Instant) (b : Beat) (r : AssignmentRun) (env : Environment) :
    Steps now b env r (r.tick now b env).subject := by
  unfold tick
  split
  · next hs =>
    split
    · exact start_steps now b env hs
    · next hd => exact .early hs hd
  · next hs => exact work_steps now b env hs
  all_goals next hs => exact .ended (by rw [hs]; rfl)

/-! ### What a playback brings -/

/-- The assignment when its playback has come to a result. -/
def settledOn (result : RunResult) (r : AssignmentRun) : AssignmentRun :=
  if result.success then { r with result := some result }.turned .completed
  else
    { r with
      result := some result
      details := (failureDetails result).or r.details }.turned .failed

/-- The assignment when a tick of its playback is over. -/
def brought (p : PlaybackRun) (r : AssignmentRun) : AssignmentRun :=
  match p.result with
  | none => r.playedOn p
  | some result => (r.playedOn p).settledOn result

/-- Turning to a status calls no handler. -/
theorem turnTo_env (status : Status) (r : AssignmentRun) (env : Environment) :
    (turnTo status r env).env = env := by
  unfold turnTo
  split <;> rfl

/-- What comes of a result is `settledOn`, and no handler is called. -/
theorem settle_settles (result : RunResult) (r : AssignmentRun) (env : Environment) :
    (settle result r env).subject = r.settledOn result ∧ (settle result r env).env = env := by
  unfold settle settledOn
  split <;> exact ⟨turnTo_subject .., turnTo_env ..⟩

/-- A tick that is played is a tick of the playback, and the assignment takes over what it
brings. -/
theorem play_brings (b : Beat) (p : PlaybackRun) (r : AssignmentRun) (env : Environment) :
    (play b p r env).subject = r.brought (p.tick b env).subject ∧
      (play b p r env).env = (p.tick b env).env := by
  unfold play brought
  dsimp only [Turn.subject_andThen, Turn.env_andThen]
  cases (p.tick b env).subject.result with
  | none => exact ⟨rfl, rfl⟩
  | some result => exact settle_settles result (r.playedOn (p.tick b env).subject) _

/-- With time left, **a tick of the assignment is one of its playback**. -/
theorem tick_of_plays {p : PlaybackRun} (now : Instant) (b : Beat) (env : Environment)
    (h : Plays r p) (ht : r.HasTime) :
    (r.tick now b env).subject = r.brought (p.tick b env).subject ∧
      (r.tick now b env).env = (p.tick b env).env := by
  -- the limit is not reached, so it is filtered out
  have hlimit : r.assignment.timeout.filter (fun t => t ≤ r.elapsed) = none := by
    rw [Option.filter_eq_none_iff]
    intro timeout htimeout hle
    exact ht timeout htimeout (of_decide_eq_true hle)
  have htick : r.tick now b env = play b p r env := by
    unfold tick work
    rw [h.status, h.playback]
    dsimp only
    rw [hlimit]
  rw [htick]
  exact play_brings b p r env

/-- Without time left, a tick breaks the playback off and says that the time is up. -/
theorem tick_of_late {p : PlaybackRun} {timeout : Float} (now : Instant) (b : Beat)
    (env : Environment) (h : Plays r p) (ht : r.assignment.timeout = some timeout)
    (hle : timeout ≤ r.elapsed) :
    (r.tick now b env).subject =
      (r.stoppedAt (p.abort (lateness timeout) env).subject).failedWith (lateness timeout) := by
  -- the limit is reached, so it stays
  have htick : r.tick now b env = timeOut timeout p r env := by
    unfold tick work
    rw [h.status, h.playback]
    dsimp only
    rw [ht, Option.filter_some, if_pos (decide_eq_true hle)]
  rw [htick]
  exact timeOut_subject ..

/-! ### Before anything is played -/

/-- Before it is due, a tick does nothing at all. -/
theorem tick_of_early (hs : r.status = .pending) (hd : ¬ r.assignment.isDue now) (b : Beat)
    (env : Environment) : r.tick now b env = .still r env := by
  unfold tick
  rw [hs]
  exact if_neg hd

/-- The playback that an assignment begins with. -/
def launched (playlist : Playlist) (r : AssignmentRun) : PlaybackRun :=
  { PlaybackRun.of playlist r.config r.runId r.startedAt with reporter := r.reporter }

/-- **The tick that begins** an assignment loads its playlist, and no more. -/
theorem tick_of_due {playlist : Playlist} (hs : r.status = .pending) (hd : r.assignment.isDue now)
    (hl : r.loader.playlist r.assignment.resourcePath = .ok playlist) (b : Beat)
    (env : Environment) :
    (r.tick now b env).subject = { r with playback := some (launched playlist r) }.turned .running ∧
      (r.tick now b env).env = env := by
  have htick : r.tick now b env = start r env := by
    unfold tick
    rw [hs]
    exact if_pos hd
  rw [htick]
  unfold start
  dsimp only
  rw [hl]
  dsimp only
  refine ⟨?_, turnTo_env ..⟩
  rw [turnTo_subject]
  -- a reporter is all that a playback is given before it begins
  unfold launched
  cases hreporter : r.reporter with
  | none => rfl
  | some reporter => rfl

/-- **A tick that finds no playlist** fails the assignment, and says what is wrong with it. -/
theorem tick_of_unloadable {e : Resource.LoadError} (hs : r.status = .pending)
    (hd : r.assignment.isDue now)
    (hl : r.loader.playlist r.assignment.resourcePath = .error e) (b : Beat) (env : Environment) :
    (r.tick now b env).subject =
      r.failedWith
        s!"Failed to load BotSequence from path: {r.assignment.resourcePath}. {e.causes.line}" := by
  unfold tick
  rw [hs]
  dsimp only
  rw [if_pos hd]
  unfold start
  dsimp only
  rw [hl]
  exact failWith_subject ..

/-! ### Updates -/

/-- An update **cancels** an assignment if it is about that assignment and says so, in letters of
whatever case, and the assignment has not ended. -/
structure Cancels (sent : Assignment) (r : AssignmentRun) : Prop where
  id : sent.id = r.assignment.id
  request : ∃ text, sent.remoteStatus = some text ∧ text.toLower = "cancelled"
  going : ¬ r.status.isTerminal

/-- Two texts have the same letters as the word for a cancellation if they are that word in small
letters. -/
theorem sameLetters_cancelled_iff (text : String) :
    CriteriaKind.sameLetters text "CANCELLED" = true ↔ text.toLower = "cancelled" := by
  unfold CriteriaKind.sameLetters String.toLower
  rw [beq_iff_eq, ← String.toList_inj, String.toList_map]
  exact Iff.rfl

/-- What an update says is a request if it is that word, in letters of whatever case. -/
theorem isCancelRequested_iff (sent : Assignment) :
    sent.isCancelRequested = true ↔
      ∃ text, sent.remoteStatus = some text ∧ text.toLower = "cancelled" := by
  unfold Assignment.isCancelRequested
  cases sent.remoteStatus with
  | none => simp
  | some text => simp [sameLetters_cancelled_iff]

/-- What a **cancellation** makes of an assignment. -/
inductive Stops (env : Environment) (r : AssignmentRun) : AssignmentRun → Prop
  | unplayed (hp : r.playback = none) : Stops env r (r.turned .cancelled)
  | broken {p : PlaybackRun} (hp : r.playback = some p) (reason : String) :
      Stops env r ((r.stoppedAt (p.abort reason env).subject).turned .cancelled)

/-- A cancellation breaks the playback off, if there is one. -/
theorem cancel_stops (r : AssignmentRun) (env : Environment) :
    Stops env r (cancel r env).subject := by
  unfold cancel
  split
  · next hp =>
    rw [turnTo_subject]
    exact .unplayed hp
  · next p hp =>
    dsimp only [Turn.subject_andThen, Turn.subject_map]
    rw [turnTo_subject]
    exact .broken hp _

/-- An update that counts is taken note of first and obeyed then. -/
theorem update_of_cancels {sent : Assignment} (h : Cancels sent r) (env : Environment) :
    Stops env (r.told sent.remoteStatus) (r.update sent env).subject := by
  have hgoing : ¬ (r.told sent.remoteStatus).status.isTerminal := h.going
  have hrequest := (isCancelRequested_iff sent).mpr h.request
  unfold update
  dsimp only
  -- it is about this assignment, asks for a cancellation, and comes in time
  rw [if_neg (not_not_intro h.id), if_neg (by rw [hrequest]; decide)]
  exact if_neg hgoing ▸ cancel_stops (r.told sent.remoteStatus) env

/-- Any other update leaves at most a note. -/
theorem update_of_not_cancels {sent : Assignment} (h : ¬ Cancels sent r) (env : Environment) :
    ∃ remoteStatus, (r.update sent env).subject = r.told remoteStatus := by
  unfold update
  dsimp only
  split
  · -- it is about some other assignment
    exact ⟨r.assignment.remoteStatus, rfl⟩
  next hid =>
  split
  · -- it asks for nothing
    exact ⟨sent.remoteStatus, rfl⟩
  next hrequest =>
  split
  · -- it comes too late
    exact ⟨sent.remoteStatus, rfl⟩
  next hgoing =>
  -- nothing is left that could keep it from being a cancellation
  refine absurd ⟨Decidable.of_not_not hid, ?_, hgoing⟩ h
  exact (isCancelRequested_iff sent).mp (by simpa using hrequest)

/-- Such an update does nothing to the environment. -/
theorem update_env_of_not_cancels {sent : Assignment} (h : ¬ Cancels sent r) (env : Environment) :
    (r.update sent env).env = env := by
  unfold update
  split
  · rfl
  next hid =>
  dsimp only
  split
  · rfl
  next hrequest =>
  split
  · rfl
  next hgoing =>
  -- as above, nothing is left that could keep it from being a cancellation
  refine absurd ⟨Decidable.of_not_not hid, ?_, hgoing⟩ h
  exact (isCancelRequested_iff sent).mp (by simpa using hrequest)

/-! ### The invariant -/

/-- **How an assignment stands**: the playback and the result that go with a status, and the time
that is known to have passed. -/
inductive Standing (c : Config) : Status → Float → Option PlaybackRun → Option RunResult → Prop
  | pending : Standing c .pending 0.0 none none
  | running {playlist : Playlist} {p : PlaybackRun} (h : PlaybackRun.Reachable playlist c p)
      (hr : p.result = none) : Standing c .running p.elapsed (some p) none
  | completed {playlist : Playlist} {p : PlaybackRun} {result : RunResult}
      (h : PlaybackRun.Reachable playlist c p) (hr : p.result = some result)
      (hs : result.success = true)
      (elapsed : Float) : Standing c .completed elapsed (some p) (some result)
  /-- It has ended before anything was played. -/
  | unplayed {status : Status} (hs : status = .failed ∨ status = .cancelled) (elapsed : Float) :
      Standing c status elapsed none none
  /-- Its playback has failed or was broken off. -/
  | stopped {status : Status} {playlist : Playlist} {p : PlaybackRun} {result : RunResult}
      (hs : status = .failed ∨ status = .cancelled) (h : PlaybackRun.Reachable playlist c p)
      (hr : p.result = some result) (hf : result.success = false) (elapsed : Float) :
      Standing c status elapsed (some p) (some result)

/-- **The invariant** of an assignment with some settings. -/
structure Sound (c : Config) (r : AssignmentRun) : Prop where
  config : r.config = c
  standing : Standing c r.status r.elapsed r.playback r.result

section Standing

variable {s : Status} {e : Float} {pb : Option PlaybackRun} {res : Option RunResult}

/-- Before it begins, an assignment has neither playback nor result, and no time has passed. -/
theorem Standing.of_pending (h : Standing c s e pb res) (hs : s = .pending) :
    pb = none ∧ res = none ∧ e = 0.0 := by
  cases h with
  | pending => exact ⟨rfl, rfl, rfl⟩
  | running | completed => cases hs
  | unplayed he | stopped he => rcases he with rfl | rfl <;> cases hs

/-- A running assignment has a playback without a result, and knows how long that has taken. -/
theorem Standing.of_running (h : Standing c s e pb res) (hs : s = .running) :
    ∃ playlist p, PlaybackRun.Reachable playlist c p ∧ pb = some p ∧ p.result = none ∧
      e = p.elapsed ∧ res = none := by
  cases h with
  | running h hr => exact ⟨_, _, h, rfl, hr, rfl, rfl⟩
  | pending | completed => cases hs
  -- an ending is a failure or a cancellation, and neither is running
  | unplayed he | stopped he => rcases he with rfl | rfl <;> cases hs

/-- Whoever has a result has it from the playback. -/
theorem Standing.of_result {result : RunResult} (h : Standing c s e pb (some result)) :
    ∃ p, pb = some p ∧ p.result = some result := by
  cases h with
  | completed _ hr | stopped _ _ hr => exact ⟨_, rfl, hr⟩

/-- What was played and has ended has a result. -/
theorem Standing.result_isSome (h : Standing c s e pb res) (hs : s.isTerminal) (hp : pb.isSome) :
    res.isSome := by
  cases h with
  | pending | running => cases hs
  | unplayed => cases hp
  | completed | stopped => rfl

end Standing

/-- What that says of the fields of an assignment. -/
theorem Sound.of_pending (h : Sound c r) (hs : r.status = .pending) :
    r.playback = none ∧ r.result = none ∧ r.elapsed = 0.0 :=
  h.standing.of_pending hs

/-- The same for a running assignment. -/
theorem Sound.of_running (h : Sound c r) (hs : r.status = .running) :
    ∃ playlist p, PlaybackRun.Reachable playlist c p ∧ r.playback = some p ∧ p.result = none ∧
      r.elapsed = p.elapsed ∧ r.result = none :=
  h.standing.of_running hs

/-- The playback of an assignment that is being played is a run of some playlist, and has not
ended. -/
theorem Sound.of_plays {p : PlaybackRun} (h : Sound c r) (hp : Plays r p) :
    ∃ playlist, PlaybackRun.Reachable playlist c p ∧ p.result = none ∧ r.elapsed = p.elapsed ∧
      r.result = none := by
  obtain ⟨playlist, q, hreach, hq, hrest⟩ := h.of_running hp.status
  obtain rfl := Option.some.inj (hp.playback.symm.trans hq)
  exact ⟨playlist, hreach, hrest⟩

/-- Breaking the playback off leaves a result that is no success. -/
theorem Sound.stoppedAt {p : PlaybackRun} {status : Status} (h : Sound c r) (hp : Plays r p)
    (hs : status = .failed ∨ status = .cancelled) (reason : String) (env : Environment)
    (e : Float) :
    Standing c status e (some (p.abort reason env).subject)
      (p.abort reason env).subject.result := by
  obtain ⟨playlist, hreach, hr, -⟩ := h.of_plays hp
  obtain ⟨result, hresult, hf⟩ := PlaybackRun.exists_result_abort reason env hr
  rw [hresult]
  exact .stopped hs (hreach.abort reason env) hresult hf e

/-- **A tick keeps the invariant**, whatever it does. -/
theorem Sound.steps (h : Sound c r) (hr : Steps now b env r r') : Sound c r' := by
  refine ⟨?_, ?_⟩
  · cases hr <;> exact h.config
  -- before anything is played, the invariant leaves no playback and no result to speak of
  cases hr with
  | ended | early => exact h.standing
  | unloadable hs =>
    obtain ⟨hp, hn, -⟩ := h.of_pending hs
    show Standing c .failed r.elapsed r.playback r.result
    rw [hp, hn]
    exact .unplayed (.inl rfl) _
  | @begin _ p hs _ hp =>
    obtain ⟨-, hn, he⟩ := h.of_pending hs
    show Standing c .running r.elapsed (some p) r.result
    rw [hn, he, ← hp.idle.1]
    exact .running (.fresh (h.config ▸ hp)) hp.idle.2
  -- a running assignment has a playback, so it never goes astray
  | astray hs hp =>
    obtain ⟨_, p, -, hp', -⟩ := h.of_running hs
    rw [hp] at hp'
    cases hp'
  -- it is broken off, and what is broken off is no success
  | late hp => exact h.stoppedAt hp (.inl rfl) _ env _
  -- the playback is one tick further, and the time is taken over from it
  | goOn hp _ hn =>
    obtain ⟨playlist, hreach, -, -, hresult⟩ := h.of_plays hp
    show Standing c r.status _ _ r.result
    rw [hp.status, hresult]
    exact .running (hreach.tick b env) hn
  | complete hp _ hresult hs =>
    obtain ⟨playlist, hreach, -⟩ := h.of_plays hp
    exact .completed (hreach.tick b env) hresult hs _
  | fail hp _ hresult hs =>
    obtain ⟨playlist, hreach, -⟩ := h.of_plays hp
    exact .stopped (.inl rfl) (hreach.tick b env) hresult (eq_false_of_ne_true hs) _

/-- What the remote side says touches nothing that the invariant speaks of. -/
theorem Sound.told (h : Sound c r) (remoteStatus : Option String) : Sound c (r.told remoteStatus) :=
  ⟨h.config, h.standing⟩

/-- What is cancelled was pending or being played. -/
theorem Sound.stops (h : Sound c r) (hr : Stops env r r') (hg : ¬ r.status.isTerminal) :
    Sound c r' := by
  refine ⟨?_, ?_⟩
  · cases hr <;> exact h.config
  rcases Status.pending_or_running hg with hs | hs
  · -- a pending assignment has no playback, and a running one has
    obtain ⟨hp, hn, -⟩ := h.of_pending hs
    cases hr with
    | unplayed =>
      show Standing c .cancelled r.elapsed r.playback r.result
      rw [hp, hn]
      exact .unplayed (.inr rfl) _
    | broken hp' =>
      rw [hp] at hp'
      cases hp'
  · obtain ⟨_, p, -, hp, -⟩ := h.of_running hs
    cases hr with
    | unplayed hp' =>
      rw [hp] at hp'
      cases hp'
    | broken hp' reason => exact h.stoppedAt ⟨hs, hp'⟩ (.inr rfl) reason env _

/-- Every tick is one of those steps. -/
theorem Sound.tick (h : Sound c r) (now : Instant) (b : Beat) (env : Environment) :
    Sound c (r.tick now b env).subject :=
  h.steps (tick_steps now b r env)

/-- **An update keeps the invariant**, whether it counts or not. -/
theorem Sound.update (h : Sound c r) (sent : Assignment) (env : Environment) :
    Sound c (r.update sent env).subject := by
  by_cases hc : Cancels sent r
  · exact (h.told _).stops (update_of_cancels hc env) hc.going
  · obtain ⟨remoteStatus, hr⟩ := update_of_not_cancels hc env
    rw [hr]
    exact h.told remoteStatus

/-- The **runs of an assignment** with some settings, after any calls of either side in any order.
Each call comes with an environment of its own, and what is on disk may change at any time. -/
inductive Reachable (a : Assignment) (c : Config) : AssignmentRun → Prop
  | of (tree : Resource.Tree) (mark : String) (startedAt : Int64) :
      Reachable a c (.of a c tree mark startedAt)
  | withReporter {r : AssignmentRun} (h : Reachable a c r) (reporter : Report.Reporter) :
      Reachable a c (r.withReporter reporter)
  | stored {r : AssignmentRun} (h : Reachable a c r) (tree : Resource.Tree) :
      Reachable a c { r with loader := { r.loader with tree } }
  | tick {r : AssignmentRun} (h : Reachable a c r) (now : Instant) (b : Beat) (env : Environment) :
      Reachable a c (r.tick now b env).subject
  | update {r : AssignmentRun} (h : Reachable a c r) (sent : Assignment) (env : Environment) :
      Reachable a c (r.update sent env).subject

/-- **Every run of an assignment is sound.** -/
theorem Reachable.sound {a : Assignment} (h : Reachable a c r) : Sound c r := by
  induction h with
  | of => exact ⟨rfl, .pending⟩
  | withReporter _ _ ih => exact ⟨ih.config, ih.standing⟩
  | stored _ _ ih => exact ⟨ih.config, ih.standing⟩
  | tick _ now b env ih => exact ih.tick now b env
  | update _ sent env ih => exact ih.update sent env

/-! ### An errand

A small assignment, to see how things come out: a single segment without criteria, and a second to
play it in. -/

/-- The errand has a second for its only segment. -/
def errand : Assignment := { Assignment.of 1 "quick" with timeout := some 1.0 }

/-- What is on disk for the errand. -/
def shelf : Resource.Tree :=
  [(["quick.json"], .text "\x7b\"name\":\"Quick\",\"endCriteria\":[]\x7d")]

/-- The errand after some ticks, one every second. -/
def errandAfter : Nat → AssignmentRun
  | 0 => .of errand .default shelf "an-errand" 0
  | n + 1 => ((errandAfter n).tick .epoch (PlaybackRun.second false) (.of .empty)).subject

/-- One tick more is one tick after the others. -/
theorem errandAfter_succ (n : Nat) : errandAfter (n + 1) =
    ((errandAfter n).tick .epoch (PlaybackRun.second false) (.of .empty)).subject := rfl

/-- What becomes of the errand are runs of it. -/
theorem errandAfter_reachable (n : Nat) : Reachable errand .default (errandAfter n) := by
  induction n with
  | zero => exact .of ..
  | succ n ih => exact ih.tick _ _ _

end AssignmentRun

end Playtest
