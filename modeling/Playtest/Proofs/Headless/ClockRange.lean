import Playtest.Proofs.Failing
import Playtest.Proofs.Headless.ExitCode

/-!
# The range of the clock

The clock of an assignment begins at zero, and the time to each frame is added to it before the
frame is played. Its reading is taken to whole milliseconds, and these are added to the instant at
which the work began. Nothing on the way bounds the reading: a recording may have any times, and the
command line takes any number for frames without times. Instants are bounded, so the sum may not be
one.

`Session.clock_leaves_range_iff` says exactly when that happens: at the first frame that finds the
assignment unfinished and takes the reading out of `Session.InRange`. Everything else that can
happen to an assignment has an exit code of its own. `Session.recording_leaves_range` is a recording
of two frames that does it.
-/

namespace Playtest

open Playtest.Calendar Playtest.Resource Playtest.Scene

namespace Calendar.Instant

/-- Nanoseconds since the beginning of 1970. -/
def sinceEpoch (t : Instant) : Int := t.seconds * 1000000000 + t.nanoseconds

/-- An instant some milliseconds later can be represented if it lies **between the first second that
there is and the end of the last**. -/
def Reaches (t : Instant) (ms : Int) : Prop :=
  secondRange.1 * 1000000000 ≤ t.sinceEpoch + ms * 1000000 ∧
    t.sinceEpoch + ms * 1000000 < (secondRange.2 + 1) * 1000000000

/-- An instant some milliseconds later is refused if it cannot be represented. -/
theorem addMilliseconds?_eq_none_iff (t : Instant) (ms : Int) :
    t.addMilliseconds? ms = none ↔ ¬ t.Reaches ms := by
  -- whole seconds are compared with the bounds, and so are nanoseconds
  have hlow : secondRange.1 ≤ (t.sinceEpoch + ms * 1000000) / 1000000000 ↔
      secondRange.1 * 1000000000 ≤ t.sinceEpoch + ms * 1000000 := Int.le_ediv_iff_mul_le (by decide)
  have hhigh : (t.sinceEpoch + ms * 1000000) / 1000000000 ≤ secondRange.2 ↔
      t.sinceEpoch + ms * 1000000 < (secondRange.2 + 1) * 1000000000 := by
    rw [← Int.lt_add_one_iff]
    exact Int.ediv_lt_iff_lt_mul (by decide)
  change (if _ ∧ _ then some _ else none) = none ↔ ¬ (_ ∧ _)
  rw [← hlow, ← hhigh]
  split
  · next h => exact iff_of_false (Option.some_ne_none _) (not_not_intro h)
  · next h => exact iff_of_true rfl h

end Calendar.Instant

namespace Headless.Session

variable {o : Options} {s : Surroundings} {c : Config} {frames : List Frame} {a : Assignment}

/-! ### Readings -/

/-- A reading of the clock in whole milliseconds, no further than 64 bits go. -/
def milliseconds (clock : Float) : Int :=
  Number.wholePartWithin Int64.minValue.toInt Int64.maxValue.toInt (clock * 1000.0)

/-- A reading that **can be added** to an instant. The least number of 64 bits is no duration. -/
def InRange (started : Instant) (clock : Float) : Prop :=
  milliseconds clock ≠ Int64.minValue.toInt ∧ started.Reaches (milliseconds clock)

/-- A reading that can be added is in range. -/
theorem clockAt_ok {started now : Instant} {clock : Float} (h : clockAt started clock = .ok now) :
    InRange started clock := by
  unfold clockAt at h
  dsimp only at h
  split at h
  · cases h
  next hms =>
  refine ⟨hms, Classical.byContradiction fun hout => ?_⟩
  -- otherwise there would be no such instant
  have hnone := (Instant.addMilliseconds?_eq_none_iff started (milliseconds clock)).mpr hout
  unfold milliseconds at hnone
  rw [hnone] at h
  cases h

/-- What is said of a reading that cannot be added: whether it is not even a duration. -/
theorem clockAt_error {started : Instant} {clock : Float} {isDuration : Bool}
    (h : clockAt started clock = .error isDuration) :
    ¬ InRange started clock ∧ (isDuration = true ↔ milliseconds clock = Int64.minValue.toInt) := by
  unfold clockAt at h
  dsimp only at h
  split at h
  · -- the milliseconds are not a duration
    next hms =>
    cases h
    exact ⟨fun hr => hr.1 hms, iff_of_true rfl hms⟩
  next hms =>
  split at h
  · cases h
  next hnone =>
  cases h
  -- they are one, and the date is out of range
  refine ⟨fun hr => ?_, iff_of_false Bool.false_ne_true hms⟩
  exact (Instant.addMilliseconds?_eq_none_iff started _).mp hnone hr.2

/-- **A reading is refused if it is out of range**, and it is said in what way. -/
theorem clockAt_error_iff (started : Instant) (clock : Float) (isDuration : Bool) :
    clockAt started clock = .error isDuration ↔
      ¬ InRange started clock ∧ (isDuration = true ↔
        milliseconds clock = Int64.minValue.toInt) := by
  refine ⟨clockAt_error, fun ⟨hout, hd⟩ => ?_⟩
  cases hc : clockAt started clock with
  | ok now => exact absurd (clockAt_ok hc) hout
  -- it is out of range, and both say the same about it
  | error d =>
    have hd' : d = true ↔ isDuration = true := (clockAt_error hc).2.trans hd.symm
    rw [Bool.eq_iff_iff.mpr hd']

/-- What the clock reads behind some frames. -/
def clockBehind (frameDelta : Float) : (previous : Option Frame) → (clock : Float) → List Frame →
    Float
  | _, clock, [] => clock
  | previous, clock, frame :: rest =>
      clockBehind frameDelta (some frame) (clock + Recording.timeBetween previous frame frameDelta)
        rest

/-- What the clock of a session reads when the frame at a position, counted from zero, is played. -/
def readingAt (o : Options) (frames : List Frame) (position : Nat) : Float :=
  clockBehind o.frameDelta none 0.0 (frames.take (position + 1))

/-! ### Frame by frame -/

section Frame

variable {frameDelta clock : Float} {started now : Instant} {previous : Option Frame}
  {frame : Frame} {run : AssignmentRun} {env : Environment} {isDuration : Bool}

/-- Where the clock cannot be read, the work breaks off before the frame is played. -/
theorem workFrames_cons_of_error
    (hc : clockAt started (clock + Recording.timeBetween previous frame frameDelta) =
      .error isDuration)
    (rest : List Frame) :
    workFrames frameDelta started previous clock (frame :: rest) run env = .error isDuration := by
  unfold workFrames
  dsimp only
  rw [hc]

/-- Where the clock can be read, the frame is played, and the rest decides unless the work is
over. -/
theorem workFrames_cons_of_ok
    (hc : clockAt started (clock + Recording.timeBetween previous frame frameDelta) = .ok now)
    (rest : List Frame) :
    workFrames frameDelta started previous clock (frame :: rest) run env =
      let ticked := run.tick now ⟨Recording.timeBetween previous frame frameDelta,
          frame, .fresh⟩ env
      if ticked.subject.status.isTerminal then .ok ticked
      else (workFrames frameDelta started (some frame)
        (clock + Recording.timeBetween previous frame frameDelta) rest ticked.subject
          ticked.env).map
          fun t => { t with messages := ticked.messages ++ t.messages } := by
  rw [workFrames]
  dsimp only
  rw [hc]

end Frame

section Work

variable {frameDelta clock : Float} {started : Instant} {previous : Option Frame}
  {run : AssignmentRun} {env : Environment} {isDuration : Bool}

/-- Work that breaks off has come to a frame that finds it unfinished, and where the clock cannot be
read. -/
theorem exists_of_workFrames_error (h : ¬ run.status.isTerminal)
    (he : workFrames frameDelta started previous clock frames run env = .error isDuration) :
    ∃ position worked, position < frames.length ∧
      workFrames frameDelta started previous clock (frames.take position) run env = .ok worked ∧
        ¬ worked.subject.status.isTerminal ∧
          clockAt started (clockBehind frameDelta previous clock (frames.take (position + 1))) =
            .error isDuration := by
  -- on the frames: the first one breaks the work off, or is played and leaves the rest to do it
  induction frames generalizing previous clock run env with
  | nil => cases he
  | cons frame rest ih =>
    cases hc : clockAt started (clock + Recording.timeBetween previous frame frameDelta) with
    -- this is the frame, and nothing was played before it
    | error d =>
      rw [workFrames_cons_of_error hc] at he
      cases he
      exact ⟨0, _, Nat.zero_lt_succ _, rfl, h, hc⟩
    | ok now =>
      rw [workFrames_cons_of_ok hc] at he
      dsimp only at he
      split at he
      · -- the work is over with this frame, so nothing has broken off
        cases he
      next hgoing =>
      obtain ⟨position, worked, hp, hworked, hw, he⟩ := ih hgoing (Except.map_eq_error_iff.mp he)
      -- the frames up to there are worked off behind this one
      have hmore : ∃ worked', workFrames frameDelta started previous clock
          ((frame :: rest).take (position + 1)) run env = .ok worked' ∧
            worked'.subject = worked.subject := by
        rw [List.take_succ_cons, workFrames_cons_of_ok hc]
        dsimp only
        rw [if_neg hgoing, hworked]
        exact ⟨_, rfl, rfl⟩
      obtain ⟨worked', hworked', hsubject⟩ := hmore
      exact ⟨position + 1, worked', Nat.succ_lt_succ hp, hworked', hsubject ▸ hw, he⟩

/-- And where it comes to such a frame, it breaks off. -/
theorem workFrames_error_of {position : Nat} {worked : Turn AssignmentRun}
    (hp : position < frames.length)
    (hworked : workFrames frameDelta started previous clock (frames.take position) run env =
      .ok worked)
    (hw : ¬ worked.subject.status.isTerminal)
    (he : clockAt started (clockBehind frameDelta previous clock (frames.take (position + 1))) =
      .error isDuration) :
    workFrames frameDelta started previous clock frames run env = .error isDuration := by
  induction frames generalizing previous clock run env position worked with
  | nil => exact absurd hp (Nat.not_lt_zero position)
  | cons frame rest ih =>
    cases position with
    -- the frame is the first one
    | zero => exact workFrames_cons_of_error he rest
    | succ position =>
      rw [List.take_succ_cons] at hworked
      cases hc : clockAt started (clock + Recording.timeBetween previous frame frameDelta) with
      | error d =>
        rw [workFrames_cons_of_error hc] at hworked
        cases hworked
      | ok now =>
        rw [workFrames_cons_of_ok hc] at hworked ⊢
        dsimp only at hworked ⊢
        split at hworked
        · -- the work would have been over before it came to the frame
          next hover =>
          cases hworked
          exact absurd hover hw
        next hgoing =>
        obtain ⟨t, ht, rfl⟩ := Except.map_eq_ok_iff.mp hworked
        rw [if_neg hgoing, Except.map_eq_error_iff]
        exact ih (Nat.lt_of_succ_lt_succ hp) ht hw he

/-- The work breaks off at a frame that finds it unfinished, at the reading of the clock there. -/
theorem workFrames_error_iff (h : ¬ run.status.isTerminal) :
    workFrames frameDelta started previous clock frames run env = .error isDuration ↔
      ∃ position worked, position < frames.length ∧
        workFrames frameDelta started previous clock (frames.take position) run env = .ok worked ∧
          ¬ worked.subject.status.isTerminal ∧
            clockAt started (clockBehind frameDelta previous clock (frames.take (position + 1))) =
              .error isDuration :=
  ⟨exists_of_workFrames_error h, fun ⟨_, _, hp, hworked, hw, he⟩ =>
    workFrames_error_of hp hworked hw he⟩

end Work

/-! ### Work on an assignment -/

/-- Only a clock out of range makes for this code. -/
theorem Ending.exitCode_eq_iff (e : Ending) :
    e.exitCode = 101 ↔ ∃ isDuration, e = .clockOverflow isDuration := by
  cases e with
  | clockOverflow isDuration => exact iff_of_true rfl ⟨isDuration, rfl⟩
  | success | runFailed | nothingToRun | loadFailure | error =>
    refine iff_of_false (by simp [Ending.exitCode]) ?_
    rintro ⟨isDuration, ⟨⟩⟩

/-- What comes of an assignment is told by an exit code, unless the clock has left its range. -/
theorem exitCode_of_ne_clockOverflow {e : Ending}
    (h : ∀ isDuration, e ≠ .clockOverflow isDuration) :
    e.exitCode ∈ ([0, 1, 2, 4] : List UInt8) := by
  cases e with
  | clockOverflow isDuration => exact absurd rfl (h isDuration)
  | success | runFailed | nothingToRun | loadFailure | error => simp [Ending.exitCode]

/-- Storing a result has nothing to do with the clock. -/
theorem store_ne_clockOverflow (result : RunResult) (isSuccess : Bool) (printed : String)
    (messages : List LogMessage) (isDuration : Bool) :
    (store s result isSuccess printed messages).ending ≠ .clockOverflow isDuration := by
  cases hf : result.appendTo s.files s.resultsFile with
  | error fault =>
    rw [store_of_error hf]
    rintro ⟨⟩
  | ok files =>
    obtain ⟨messages', hstore⟩ := store_of_ok hf isSuccess printed messages
    rw [hstore]
    cases isSuccess <;> rintro ⟨⟩

/-- Nothing but a frame that cannot be played makes the clock leave its range. -/
theorem playAssignment_ending_iff (messages : List LogMessage) (isDuration : Bool) :
    (playAssignment o s c frames a messages).ending = .clockOverflow isDuration ↔
      framesWorked o s c frames a = .error isDuration := by
  cases hw : framesWorked o s c frames a with
  -- the work has broken off, and that is the ending
  | error d =>
    obtain ⟨messages', hout⟩ := playAssignment_of_overflow hw messages
    rw [hout]
    change Ending.clockOverflow d = _ ↔ _
    rw [Ending.clockOverflow.injEq, Except.error.injEq]
  -- the frames were all played, and what follows has another ending in every case
  | ok worked =>
    obtain ⟨printed, messages', hout⟩ := playAssignment_of_ok hw messages
    dsimp only at hout
    refine iff_of_false ?_ (by rintro ⟨⟩)
    rw [hout]
    split
    · cases (endAssignment worked.subject worked.env).subject.status <;> rintro ⟨⟩
    · exact store_ne_clockOverflow _ _ _ _ _

/-- **When the clock leaves its range.** Work on an assignment breaks off without an outcome exactly
if some frame finds the assignment unfinished and the clock at a reading that cannot be added to the
instant at which the work began. As long as all readings can, the work ends with one of the exit
codes. -/
theorem clock_leaves_range_iff (o : Options) (s : Surroundings) (c : Config) (frames : List Frame)
    (a : Assignment) (messages : List LogMessage) :
    let ending := (playAssignment o s c frames a messages).ending
    (∀ isDuration, ending = .clockOverflow isDuration ↔
      ∃ position worked, position < frames.length ∧
        framesWorked o s c (frames.take position) a = .ok worked ∧
        ¬ worked.subject.status.isTerminal ∧ ¬ InRange s.now (readingAt o frames position) ∧
          (isDuration = true ↔ milliseconds (readingAt o frames position) = Int64.minValue.toInt)) ∧
    (ending.exitCode = 101 ↔ ∃ isDuration, ending = .clockOverflow isDuration) ∧
    ((∀ position, position < frames.length → InRange s.now (readingAt o frames position)) →
      ending.exitCode ∈ ([0, 1, 2, 4] : List UInt8)) := by
  have hiff : ∀ isDuration,
      (playAssignment o s c frames a messages).ending = .clockOverflow isDuration ↔
      ∃ position worked, position < frames.length ∧
        framesWorked o s c (frames.take position) a = .ok worked ∧
        ¬ worked.subject.status.isTerminal ∧ ¬ InRange s.now (readingAt o frames position) ∧
          (isDuration = true ↔ milliseconds (readingAt o frames position) =
            Int64.minValue.toInt) := by
    intro isDuration
    rw [playAssignment_ending_iff]
    unfold framesWorked readingAt
    rw [workFrames_error_iff (show ¬ ((AssignmentRun.of a c s.files s.mark s.startedAt).withReporter
      (.of o.reporter)).status.isTerminal from Bool.false_ne_true)]
    -- position by position, a refused reading is one out of range
    simp only [clockAt_error_iff]
  refine ⟨hiff, Ending.exitCode_eq_iff _,
    fun hin => exitCode_of_ne_clockOverflow fun isDuration he => ?_⟩
  obtain ⟨position, worked, hp, -, -, hout, -⟩ := (hiff isDuration).mp he
  exact hout (hin position hp)

/-! An errand is recorded twice, with a second between its frames and with longer than there are
years. -/

/-- The command line for an errand against a recording. -/
def onErrand : Options where
  sequence := none
  assignment := some "errand.json"
  frames := "errand.jsonl"
  config := none
  resourceRoot := none
  timeout := none
  frameDelta := 0.016666
  reporter := .default
  noProgress := false
  runId := none

/-- Two frames with some time between them. -/
def recordedApart (time : Float) : List Frame :=
  [{ Frame.empty with time := some 0.0 }, { Frame.empty with time }]

/-- A second is within the range of every clock. -/
theorem second_is_in_range :
    (playAssignment onErrand (outdoors 0) .default (recordedApart 1.0)
      AssignmentRun.errand []).ending.exitCode ∈ ([0, 1, 2, 4] : List UInt8) := by
  refine (clock_leaves_range_iff onErrand (outdoors 0) .default (recordedApart 1.0)
    AssignmentRun.errand []).2.2 fun position hp => ?_
  cases position with
  -- both readings are within the first seconds
  | zero => exact ⟨by decide +kernel, by decide +kernel, by decide +kernel⟩
  | succ position =>
    obtain rfl : position = 0 := Nat.lt_one_iff.mp (Nat.lt_of_succ_lt_succ hp)
    exact ⟨by decide +kernel, by decide +kernel, by decide +kernel⟩

/-- **A recording with finite times may take the clock out of its range.** -/
theorem recording_leaves_range :
    ¬ ∀ (o : Options) (s : Surroundings) (c : Config) (frames : List Frame) (a : Assignment)
        (messages : List LogMessage) (isDuration : Bool),
      (∃ arguments, Options.ofArguments arguments = .ok o) →
        (∀ frame ∈ frames, ∀ time, frame.time = some time → time.isFinite = true) →
          (playAssignment o s c frames a messages).ending ≠ .clockOverflow isDuration := by
  intro hall
  have hcode : (playAssignment onErrand (outdoors 0) .default (recordedApart 1e13)
      AssignmentRun.errand []).ending.exitCode = 101 := by decide +kernel
  obtain ⟨isDuration, he⟩ := (Ending.exitCode_eq_iff _).mp hcode
  refine hall onErrand (outdoors 0) .default (recordedApart 1e13) AssignmentRun.errand [] isDuration
    ?_ ?_ he
  · exact ⟨["--assignment", "errand.json", "--frames", "errand.jsonl"], rfl⟩
  · -- the two times are zero and some hundred thousand years, and both are finite
    intro frame hframe time ht
    simp only [recordedApart, List.mem_cons, List.not_mem_nil, or_false] at hframe
    rcases hframe with rfl | rfl <;> cases ht <;> decide +kernel

end Headless.Session

end Playtest
