import Playtest.Proofs.Playback.HostCalls
import Playtest.Proofs.Playback.Outstanding
import Playtest.Proofs.Playback.SingleFile
import Playtest.Proofs.Segment.ListName

/-!
# Where one list ends and the next begins

A playlist is cut into lists, and where no list is parallel or optional the cuts make no difference.
The main result, `PlaybackRun.boundaries_change_nothing`, compares the runs of two playlists with
the same segments, of which neither has an empty list. Whatever a host does, and with whatever
environment, both runs leave the same environment, end with the same call, and have the same results
but for the names of the lists.

Both runs have their segments in single file, and so a tick plays the same segment of both. From
then on `PlaybackRun.Same` is carried through the tick. The reasons for which the two are broken off
are not the same if a segment is fatal, since such a reason names the list. It gets lost because
nobody else is under way in single file (`Queued.settled`): everybody else has ended, and needs no
reason, or is skipped without one.
-/

namespace Playtest

open Playtest.Scene

/-- What a result says, apart from how the run was called and where it was kept, and from the names
of lists. -/
def RunResult.gist (result : RunResult) : Float × Bool × List SegmentResult :=
  (result.duration, result.success, result.segments.map SegmentResult.unlisted)

/-- The result without the names of lists. -/
def RunResult.unlisted (result : RunResult) : RunResult :=
  { result with segments := result.segments.map SegmentResult.unlisted }

namespace PlaybackRun

open SegmentRun ListRun

variable {p p' : Playlist} {c c' : Config} {b : Beat} {r r' : PlaybackRun} {m : Moment}
  {env env' : Environment} {reason : String} {ss ss' : List SegmentRun}

/-! ### Without the names of lists -/

/-- What is blind to the name of the list may be done before or after the name is taken away. -/
theorem eachSegment_unlisted {f : SegmentRun → Environment → Turn SegmentRun} (hf : Blind f)
    (ss : List SegmentRun) (env : Environment) :
    eachSegment f (ss.map unlisted) env = (eachSegment f ss env).map (List.map unlisted) := by
  induction ss generalizing env with
  | nil => rfl
  | cons s rest ih =>
    rw [List.map_cons, eachSegment, hf s env]
    change (f s env).andThen (fun s env =>
      (eachSegment f (rest.map unlisted) env).map (s.unlisted :: ·)) = _
    simp only [ih]
    rfl

/-- Playing the first segment that has not ended is blind to the names of lists. -/
theorem playFirst_unlisted (m : Moment) (ss : List SegmentRun) (env : Environment) :
    playFirst m (ss.map unlisted) env = (playFirst m ss env).map (List.map unlisted) := by
  induction ss with
  | nil => rfl
  | cons s rest ih =>
    rw [List.map_cons, playFirst, playFirst, state_unlisted]
    -- one that has ended is passed over on both sides
    split
    · rw [ih]
      rfl
    · rw [blind_tick m s env]
      rfl

/-- Whether a segment has broken the run does not hang on the names. -/
theorem broken_unlisted : Broken (ss.map unlisted) ↔ Broken ss := by
  constructor
  · rintro ⟨_, hmem, hbroken⟩
    obtain ⟨s, hs, rfl⟩ := List.mem_map.mp hmem
    exact ⟨s, hs, hbroken⟩
  · rintro ⟨s, hs, hbroken⟩
    have hmem : s.unlisted ∈ ss.map unlisted := List.mem_map_of_mem hs
    exact ⟨s.unlisted, hmem, hbroken⟩

/-- Whether one has just completed does not, either. -/
theorem completes_unlisted (ss ss' : List SegmentRun) :
    completes (ss.map unlisted) (ss'.map unlisted) = completes ss ss' := by
  unfold completes
  rw [List.zip_map, List.any_map]
  rfl

/-- Nor does whether all have ended. -/
theorem all_isTerminal_unlisted :
    (∀ s ∈ ss.map unlisted, s.state.isTerminal) ↔ ∀ s ∈ ss, s.state.isTerminal := by
  rw [List.forall_mem_map]
  rfl

/-! ### Breaking off -/

/-- Breaking lists off does to the environment what breaking off their segments does, in their
order. -/
theorem abortLists_env (ls : List ListRun) (env : Environment) :
    (abortLists reason ls env).env =
      (eachSegment (SegmentRun.abort reason) (ls.flatMap ListRun.segments) env).env := by
  induction ls generalizing env with
  | nil => rfl
  | cons l rest ih =>
    rw [List.flatMap_cons, eachSegment_append, ListRun.segments, eachSegment_append]
    exact ih (l.abort reason env).env

/-- Where nobody is under way, nobody is told. -/
theorem eachSegment_abort_of_settled (h : ∀ s ∈ ss, s.state.isTerminal ∨ s.state = .pending) :
    (eachSegment (SegmentRun.abort reason) ss env).env = env := by
  induction ss with
  | nil => rfl
  | cons s rest ih =>
    rw [List.forall_mem_cons] at h
    -- one that has ended stays as it is, and one that has not begun is skipped
    have hs : (s.abort reason env).env = env := by
      unfold SegmentRun.abort
      split
      · rfl
      · next ht =>
        rw [if_pos (h.1.resolve_left ht)]
        exact (skip_eq env).2
    change (eachSegment _ rest (s.abort reason env).env).env = env
    rw [hs]
    exact ih h.2

/-- Where nobody is under way, the reason is kept nowhere. -/
theorem map_cutOff_of_settled (h : ∀ s ∈ ss, s.state.isTerminal ∨ s.state = .pending) :
    ss.map (SegmentRun.cutOff reason) = ss.map SegmentRun.skipped := by
  refine List.map_congr_left fun s hs => ?_
  rcases h s hs with ht | hp
  · have hp : s.state ≠ .pending := by
      intro hp
      rw [hp] at ht
      exact Bool.false_ne_true ht
    rw [SegmentRun.cutOff, if_pos ht, SegmentRun.skipped, if_neg hp]
  · rw [SegmentRun.cutOff, if_neg (by rw [hp]; decide), if_pos hp]

/-! ### Runs in single file -/

/-- A run of the playlist whose segments stand **in single file**. -/
structure InFile (p : Playlist) (c : Config) (r : PlaybackRun) : Prop where
  sound : Sound p c r
  single : ∀ l ∈ r.lists, l.Single

/-- A tick that does not end the run leaves it in single file. -/
theorem InFile.tick (h : InFile p c r) (hr : r.result = none)
    (hn : (r.tick b env).subject.result = none) :
    InFile p c (r.tick b env).subject := by
  refine ⟨h.sound.tick b env, ?_⟩
  rw [(tick_of_goingOn hr hn).1]
  exact (tickLists_round (r.moment b env) r.lists (r.opened b env)).single h.single

/-- **A round in single file** plays the first segment that has not ended, and no other. -/
theorem InFile.round (h : InFile p c r) (b : Beat) (env : Environment) :
    (r.played b env).segments = (playFirst (r.moment b env) r.segments (r.opened b env)).subject ∧
      (r.round b env).env = (playFirst (r.moment b env) r.segments (r.opened b env)).env :=
  (tickLists_round (r.moment b env) r.lists (r.opened b env)).singleFile fun l hl =>
    ⟨h.sound.lists l hl, h.single l hl⟩

/-- A round is fatal just if it leaves a segment that breaks the run. -/
theorem InFile.fatal_iff (h : InFile p c r) (hr : r.result = none) (b : Beat) (env : Environment) :
    (r.round b env).subject.fatal.isSome ↔ Broken (r.played b env).segments :=
  (tickLists_round (r.moment b env) r.lists (r.opened b env)).fatal_iff fun l hl =>
    ⟨h.sound.lists l hl, h.sound.unbroken hr l hl⟩

/-- A fatal round brings no new key frame. -/
theorem keyFrame_played_of_fatal (hf : (r.round b env).subject.fatal = some reason) :
    (r.played b env).keyFrame = r.keyFrame := by
  change (if ((r.round b env).subject.isKeyFrame && (r.round b env).subject.fatal.isNone) = true
    then _ else _) = _
  rw [hf, Option.isNone_some, Bool.and_false]
  rfl

/-- Otherwise there is a new key frame if a segment has completed. -/
theorem InFile.keyFrame_played (h : InFile p c r) (b : Beat) (env : Environment)
    (hf : (r.round b env).subject.fatal = none) :
    (r.played b env).keyFrame =
      if completes r.segments (r.played b env).segments then some (r.moment b env).snapshot
      else r.keyFrame := by
  have hcompletes :=
    (tickLists_round (r.moment b env) r.lists (r.opened b env)).completes hf h.sound.lists
  change (if ((r.round b env).subject.isKeyFrame && (r.round b env).subject.fatal.isNone) = true
    then _ else _) = _
  rw [hf, Option.isNone_none, Bool.and_true]
  exact congrArg (fun k => if k = true then _ else _) hcompletes.symm

/-- In single file all lists have finished when all segments have ended. -/
theorem InFile.finished_iff (h : InFile p c r) (hr : r.result = none) (b : Beat) (env : Environment)
    (hf : (r.round b env).subject.fatal = none) :
    (r.played b env).lists.all ListRun.isFinished ↔
      ∀ s ∈ (r.played b env).segments, s.state.isTerminal := by
  have hsound : Sound p c (r.played b env) := h.sound.played_sound hr hf
  refine PlaybackRun.finished_iff fun l hl => ⟨hsound.lists l hl, ?_⟩
  exact (tickLists_round (r.moment b env) r.lists (r.opened b env)).single h.single l hl

/-- Nobody is under way when a segment is fatal. -/
theorem InFile.settled (h : InFile p c r) (hr : r.result = none) (b : Beat) (env : Environment)
    (hb : Broken (r.played b env).segments) :
    ∀ s ∈ (r.played b env).segments, s.state.isTerminal ∨ s.state = .pending := by
  have hlists : ∀ l ∈ r.lists, l.Sound ∧ l.Single := fun l hl => ⟨h.sound.lists l hl, h.single l hl⟩
  rw [(h.round b env).1] at hb ⊢
  exact (queued_segments hlists h.sound.ordered).settled
    (not_broken fun l hl => ⟨h.sound.lists l hl, h.sound.unbroken hr l hl⟩) hb

/-! ### Two runs -/

/-- Two runs that are **the same**, if the names of lists do not count. -/
structure Same (r r' : PlaybackRun) : Prop where
  segments : r'.segments.map unlisted = r.segments.map unlisted
  keyFrame : r'.keyFrame = r.keyFrame
  elapsed : r'.elapsed = r.elapsed
  ticks : r'.ticks = r.ticks
  timeout : r'.timeout = r.timeout
  listener : r'.listener = r.listener
  result : r'.result.map RunResult.gist = r.result.map RunResult.gist

/-- As long as one of the runs goes on, so does the other. -/
theorem Same.result_none (h : Same r r') (hr : r.result = none) : r'.result = none := by
  have hresult := h.result
  rw [hr] at hresult
  exact Option.map_eq_none_iff.mp hresult

/-- Counting a tick and looking at the signal leaves them the same. -/
theorem Same.begun (h : Same r r') (b : Beat) : Same (r.begun b) (r'.begun b) where
  segments := h.segments
  keyFrame := h.keyFrame
  elapsed := by
    change (if r'.ticks = 0 then r'.elapsed else _) = if r.ticks = 0 then r.elapsed else _
    rw [h.ticks, h.elapsed]
  ticks := congrArg (· + 1) h.ticks
  timeout := h.timeout
  listener := by
    change r'.listener.map _ = r.listener.map _
    rw [h.listener]
  result := h.result

/-- The same time and the same signal are in the way of the same. -/
theorem Same.obstacle?_eq (h : Same r r') : r'.obstacle? = r.obstacle? := by
  unfold obstacle?
  rw [h.listener, h.timeout, h.elapsed]

/-- The gist of a result can be told without the names of lists. -/
theorem gist_outcome (ranThrough : Bool) (r : PlaybackRun) :
    (r.outcome ranThrough).gist =
      (r.elapsed,
        ranThrough && (r.segments.map unlisted).all fun s =>
          !s.result.isRequired || s.result.passed,
        (r.segments.map unlisted).map SegmentRun.result) := by
  have hresult : ∀ s : SegmentRun, s.unlisted.result = s.result.unlisted := result_unlisted
  -- what a list is called is no matter for whether its segments passed
  have hall : (r.segments.map unlisted).all (fun s => !s.result.isRequired || s.result.passed) =
      (r.segments.map SegmentRun.result).all fun s => !s.isRequired || s.passed := by
    rw [List.all_map, List.all_map]
    congr 1
    funext s
    change (!s.unlisted.result.isRequired || s.unlisted.result.passed) = _
    rw [hresult]
    rfl
  rw [hall, List.map_map]
  change (r.elapsed, _, (r.segments.map SegmentRun.result).map SegmentResult.unlisted) = _
  rw [List.map_map]
  congr 2
  exact List.map_congr_left fun s _ => (hresult s).symm

/-- Ending both keeps them the same. -/
theorem Same.ended (h : Same r r') (ranThrough : Bool) :
    Same (r.ended ranThrough) (r'.ended ranThrough) where
  segments := h.segments
  keyFrame := h.keyFrame
  elapsed := h.elapsed
  ticks := h.ticks
  timeout := h.timeout
  listener := h.listener
  result := by
    change some (r'.outcome ranThrough).gist = some (r.outcome ranThrough).gist
    rw [gist_outcome, gist_outcome, h.segments, h.elapsed]

/-- Breaking both off keeps them the same, if it does the same to their segments. -/
theorem Same.cutOff {reason' : String} (h : Same r r')
    (hs : (r'.segments.map (SegmentRun.cutOff reason')).map unlisted =
      (r.segments.map (SegmentRun.cutOff reason)).map unlisted) :
    Same (r.cutOff reason) (r'.cutOff reason') where
  segments := by rw [segments_cutOff, segments_cutOff, hs]
  keyFrame := h.keyFrame
  elapsed := h.elapsed
  ticks := h.ticks
  timeout := h.timeout
  listener := h.listener
  result := h.result

/-- Names may be taken away before or after something that is blind to them. -/
theorem map_unlisted_map {f : SegmentRun → SegmentRun}
    (hf : ∀ s : SegmentRun, f s.unlisted = (f s).unlisted)
    (ss : List SegmentRun) : (ss.map f).map unlisted = (ss.map unlisted).map f := by
  rw [List.map_map, List.map_map]
  exact List.map_congr_left fun s _ => (hf s).symm

/-- **Breaking both off for one reason** keeps them the same, and the environment, too. -/
theorem Same.breakOff (h : Same r r') (reason : String) (env : Environment) :
    Same ((r.cutOff reason).ended false) ((r'.cutOff reason).ended false) ∧
      (breakOff reason r' env).env = (breakOff reason r env).env := by
  constructor
  · refine Same.ended (h.cutOff ?_) false
    rw [map_unlisted_map (cutOff_unlisted reason), map_unlisted_map (cutOff_unlisted reason),
      h.segments]
  · change (abortLists reason r'.lists env).env = (abortLists reason r.lists env).env
    -- the name of a list is not looked at
    have hblind : ∀ r : PlaybackRun, (abortLists reason r.lists env).env =
        (eachSegment (SegmentRun.abort reason) (r.segments.map unlisted) env).env := by
      intro r
      rw [abortLists_env, eachSegment_unlisted (blind_abort reason)]
      rfl
    rw [hblind, hblind, h.segments]

/-- The reasons do not matter where nobody is under way, because nobody is told. -/
theorem Same.breakOff_settled {reason' : String} (h : Same r r')
    (hs : ∀ s ∈ r.segments, s.state.isTerminal ∨ s.state = .pending)
    (hs' : ∀ s ∈ r'.segments, s.state.isTerminal ∨ s.state = .pending) (env : Environment) :
    Same ((r.cutOff reason).ended false) ((r'.cutOff reason').ended false) ∧
      (PlaybackRun.breakOff reason' r' env).env = (PlaybackRun.breakOff reason r env).env := by
  constructor
  · refine Same.ended (h.cutOff ?_) false
    rw [map_cutOff_of_settled hs, map_cutOff_of_settled hs', map_unlisted_map skipped_unlisted,
      map_unlisted_map skipped_unlisted, h.segments]
  · -- no handler is called on either side
    calc (abortLists reason' r'.lists env).env
      _ = env := (abortLists_env _ _).trans (eachSegment_abort_of_settled hs')
      _ = (abortLists reason r.lists env).env :=
        ((abortLists_env _ _).trans (eachSegment_abort_of_settled hs)).symm

/-- A round leaves two runs the same, and the same environment. -/
theorem Same.played (h : Same r r') (hf : InFile p c r) (hf' : InFile p' c' r')
    (hr : r.result = none) (b : Beat) (env : Environment) :
    Same (r.played b env) (r'.played b env) ∧ (r'.round b env).env = (r.round b env).env ∧
      ((r'.round b env).subject.fatal.isSome ↔ (r.round b env).subject.fatal.isSome) := by
  have hr' := h.result_none hr
  obtain ⟨hsegments, henv⟩ := hf.round b env
  obtain ⟨hsegments', henv'⟩ := hf'.round b env
  rw [moment_congr h.ticks h.keyFrame, opened_congr h.ticks] at hsegments' henv'
  -- both play the first segment that has not ended
  have hplay : playFirst (r.moment b env) (r'.segments.map unlisted) (r.opened b env) =
      playFirst (r.moment b env) (r.segments.map unlisted) (r.opened b env) := by rw [h.segments]
  rw [playFirst_unlisted, playFirst_unlisted] at hplay
  have hafter : (r'.played b env).segments.map unlisted =
      (r.played b env).segments.map unlisted := by
    rw [hsegments, hsegments']
    exact congrArg Turn.subject hplay
  have hfatal : (r'.round b env).subject.fatal.isSome ↔ (r.round b env).subject.fatal.isSome := by
    rw [hf.fatal_iff hr, hf'.fatal_iff hr', ← broken_unlisted, hafter, broken_unlisted]
  have hkeyFrame : (r'.played b env).keyFrame = (r.played b env).keyFrame := by
    -- a key frame is taken from the same moment, and for the same segment
    cases ht : (r.round b env).subject.fatal with
    | none =>
      have ht' : (r'.round b env).subject.fatal = none := by
        rw [ht] at hfatal
        exact Option.not_isSome_iff_eq_none.mp fun hs => Bool.false_ne_true (hfatal.mp hs)
      rw [hf.keyFrame_played b env ht, hf'.keyFrame_played b env ht',
        moment_congr h.ticks h.keyFrame, h.keyFrame, ← completes_unlisted, h.segments, hafter,
        completes_unlisted]
    | some reason =>
      rw [ht] at hfatal
      obtain ⟨reason', ht'⟩ := Option.isSome_iff_exists.mp (hfatal.mpr rfl)
      rw [keyFrame_played_of_fatal ht, keyFrame_played_of_fatal ht', h.keyFrame]
  have hbegun := h.begun b
  exact ⟨⟨hafter, hkeyFrame, hbegun.elapsed, hbegun.ticks, hbegun.timeout, hbegun.listener,
    hbegun.result⟩, henv'.trans ((congrArg Turn.env hplay).trans henv.symm), hfatal⟩

/-- **A tick leaves two runs the same**, and the same environment. -/
theorem Same.tick (h : Same r r') (hf : InFile p c r) (hf' : InFile p' c' r') (hr : r.result = none)
    (b : Beat) (env : Environment) :
    Same (r.tick b env).subject (r'.tick b env).subject ∧
      (r'.tick b env).env = (r.tick b env).env := by
  have hr' := h.result_none hr
  have hbegun := h.begun b
  have ht := tick_eq b env hr
  have ht' := tick_eq b env hr'
  rw [hbegun.obstacle?_eq, opened_congr h.ticks] at ht'
  -- time and signal are the same for both, and so is what they are in the way of
  cases ho : (r.begun b).obstacle? with
  | some reason =>
    rw [ho] at ht ht'
    rw [ht.1, ht.2, ht'.1, ht'.2, breakOff_subject, breakOff_subject]
    exact hbegun.breakOff reason (r.opened b env)
  | none =>
    -- nothing is in the way of the second run, either
    have ho' : (r'.begun b).obstacle? = none := hbegun.obstacle?_eq.trans ho
    obtain ⟨hplayed, henv, hfatal⟩ := h.played hf hf' hr b env
    cases hn : (r.round b env).subject.fatal with
    | some reason =>
      rw [hn] at hfatal
      obtain ⟨reason', hn'⟩ := Option.isSome_iff_exists.mp (hfatal.mpr rfl)
      -- the reasons name the lists, and so they are not the same
      have ht := tick_of_no_obstacle env hr ho
      have ht' := tick_of_no_obstacle env hr' ho'
      rw [hn] at ht
      rw [hn'] at ht'
      rw [ht.1, ht.2, ht'.1, ht'.2, Turn.subject_andThen, Turn.subject_andThen, Turn.env_andThen,
        Turn.env_andThen, breakOff_subject, breakOff_subject]
      have hsettled := hf.settled hr b env ((hf.fatal_iff hr b env).mp (by rw [hn]; rfl))
      have hsettled' := hf'.settled hr' b env ((hf'.fatal_iff hr' b env).mp (by rw [hn']; rfl))
      obtain ⟨hcut, hcutEnv⟩ := hplayed.breakOff_settled hsettled hsettled' (r.round b env).env
      rw [Turn.env_saying, Turn.env_saying, Turn.subject_saying, Turn.subject_saying, henv]
      exact ⟨hcut, hcutEnv⟩
    | none =>
      have hn' : (r'.round b env).subject.fatal = none := by
        rw [hn] at hfatal
        exact Option.not_isSome_iff_eq_none.mp fun hs => Bool.false_ne_true (hfatal.mp hs)
      obtain ⟨hafter, hend⟩ := tick_of_not_fatal hr ho hn
      obtain ⟨hafter', hend'⟩ := tick_of_not_fatal hr' ho' hn'
      -- both are over if all of their segments have ended
      have hall : (r'.played b env).lists.all ListRun.isFinished ↔
          (r.played b env).lists.all ListRun.isFinished := by
        rw [hf.finished_iff hr b env hn, hf'.finished_iff hr' b env hn', ← all_isTerminal_unlisted,
          hplayed.segments, all_isTerminal_unlisted]
      rw [hafter, hafter', hend, hend']
      by_cases hover : (r.played b env).lists.all ListRun.isFinished
      · rw [if_pos hover, if_pos (hall.mpr hover)]
        exact ⟨hplayed.ended true, henv⟩
      · rw [if_neg hover, if_neg fun hover' => hover (hall.mp hover')]
        exact ⟨hplayed, henv⟩

/-- **A call leaves two runs the same.** They stay in single file as long as they go on. -/
theorem Same.serve (h : Same r r') (hf : InFile p c r) (hf' : InFile p' c' r')
    (hr : r.result = none) (call : HostCall) (env : Environment) :
    Same (serve call r env).subject (serve call r' env).subject ∧
      (serve call r' env).env = (serve call r env).env ∧
        ((serve call r env).subject.result = none →
          InFile p c (serve call r env).subject ∧ InFile p' c' (serve call r' env).subject) := by
  have hr' := h.result_none hr
  cases call with
  | tick b =>
    obtain ⟨hsame, henv⟩ := h.tick hf hf' hr b env
    exact ⟨hsame, henv, fun hn => ⟨hf.tick hr hn, hf'.tick hr' (hsame.result_none hn)⟩⟩
  | abort reason =>
    obtain ⟨hsame, henv⟩ := h.breakOff reason env
    -- neither run has a result, so both calls break off
    have habort : r.abort reason env = PlaybackRun.breakOff reason r env :=
      if_neg (not_isFinished hr)
    have habort' : r'.abort reason env = PlaybackRun.breakOff reason r' env :=
      if_neg (not_isFinished hr')
    rw [PlaybackRun.serve, PlaybackRun.serve, habort, habort', breakOff_subject, breakOff_subject]
    exact ⟨hsame, henv, fun hn => by cases hn⟩
  | meanwhile change => exact ⟨h, rfl, fun _ => ⟨hf, hf'⟩⟩

/-- **Two runs in single file stay the same**, whatever a host does with both. -/
theorem Same.serveAll (cs : List HostCall) (h : Same r r')
    (hf : r.result = none → InFile p c r ∧ InFile p' c' r') (env : Environment) :
    Same (serveAll cs r env).subject (serveAll cs r' env).subject ∧
      (serveAll cs r' env).env = (serveAll cs r env).env := by
  -- induction over the calls, with `Same` as the invariant
  induction cs generalizing r r' env with
  | nil => exact ⟨h, rfl⟩
  | cons call cs ih =>
    cases hr : r.result with
    | some result =>
      -- both have ended, and take no notice
      have hresult := h.result
      rw [hr] at hresult
      obtain ⟨result', hr', -⟩ := Option.map_eq_some_iff.mp hresult
      rw [serveAll_of_ended hr, serveAll_of_ended hr']
      exact ⟨h, rfl⟩
    | none =>
      obtain ⟨hfile, hfile'⟩ := hf hr
      obtain ⟨hsame, henv, hfiles⟩ := h.serve hfile hfile' hr call env
      have hrest := ih hsame hfiles (PlaybackRun.serve call r env).env
      rw [← henv] at hrest
      rw [PlaybackRun.serveAll, PlaybackRun.serveAll, Turn.subject_andThen, Turn.subject_andThen,
        Turn.env_andThen, Turn.env_andThen, ← henv]
      exact hrest

/-! ### Two runs that have not begun -/

/-- A list is made in single file if it is not empty, needed, and lets no others pass. -/
theorem listRuns_single {ls : List SegmentList} (hl : ∀ l ∈ ls, l.segments ≠ [] ∧
    ¬ c.isOptionalList l.name ∧ ¬ c.isParallelList l.name) (number : Nat) :
    ∀ l ∈ listRuns c number ls, l.Single := by
  intro l hm
  obtain ⟨k, hk, n, hn⟩ := exists_of_mem_listRuns hm
  obtain rfl := (List.cons.inj hn).1
  obtain ⟨hfull, hneeded, halone⟩ := hl k hk
  -- nothing has happened to it, so all its segments are pending
  have huntouched := listRuns_untouched c number ls _ hm
  refine ⟨halone, hneeded, fun _ => ?_, fun _ s hs => huntouched.pending s hs⟩
  obtain ⟨s, ss, hs⟩ := List.exists_cons_of_ne_nil hfull
  change segmentRuns c k.name n k.segments ≠ []
  rw [hs]
  exact List.cons_ne_nil _ _

/-- The segments of a playlist, without the names of their lists. -/
theorem map_snd_segments (p : Playlist) :
    p.segments.map Prod.snd = p.lists.flatMap SegmentList.segments := by
  unfold Playlist.segments
  rw [List.map_flatMap]
  congr 1
  funext l
  rw [List.map_map]
  exact List.map_id l.segments

/-- How a segment is made hangs on the name of its list only where the list may be optional. -/
theorem made_unlisted {xs : List (String × Segment)} (hneeded : ∀ x ∈ xs, ¬ c.isOptionalList x.1)
    (number : Nat) :
    ((xs.zipIdx number).map (made c)).map unlisted =
      ((xs.map Prod.snd).zipIdx number).map fun s =>
        .of s.1 "" s.2 (!c.isOptionalSegment s.1.name) := by
  induction xs generalizing number with
  | nil => rfl
  | cons x rest ih =>
    rw [List.forall_mem_cons] at hneeded
    simp only [List.zipIdx_cons, List.map_cons, ih hneeded.2]
    congr 1
    -- the list is not optional, and only the segment itself may be
    change SegmentRun.of x.2 "" number (!c.isOptionalList x.1 && !c.isOptionalSegment x.2.name) = _
    rw [Bool.eq_false_iff.mpr hneeded.1]
    rfl

/-- **Two runs are made the same** if their playlists have the same segments. -/
theorem Fresh.segments_unlisted (h : Fresh p c r)
    (hneeded : ∀ l ∈ p.lists, ¬ c.isOptionalList l.name) :
    r.segments.map unlisted = ((p.lists.flatMap SegmentList.segments).zipIdx 1).map fun s =>
      .of s.1 "" s.2 (!c.isOptionalSegment s.1.name) := by
  have hmade : r.segments = (p.segments.zipIdx 1).map (made c) := by
    unfold PlaybackRun.segments
    rw [h.lists_eq]
    exact flatMap_listRuns c p.name 1 p.lists
  -- without optional lists, what a segment is made with does not depend on its list
  rw [hmade, made_unlisted, map_snd_segments]
  intro x hx
  obtain ⟨l, hl, hx⟩ := List.mem_flatMap.mp hx
  obtain ⟨s, -, rfl⟩ := List.mem_map.mp hx
  exact hneeded l hl

/-- A run is called after its playlist, and kept where the settings say. -/
theorem Fresh.called (h : Fresh p c r) : r.sequenceName = p.name ∧ r.outputDir = c.outputDir :=
  ⟨congrArg PlaybackRun.sequenceName h.eq, congrArg PlaybackRun.outputDir h.eq⟩

/-- **Where lists begin and end changes nothing.** Take two playlists with the same segments, none
with an empty list and none with an optional or a parallel one, and settings with which the same
segments are optional. Let runs of both have the same time limit and listen for the same signal.
After anything that a host does with them in environments that are the same,

* the environments are the same, with every call of a handler and every vision request there was,
* the same segments are in the same states, with the same histories,
* either none of the runs has ended, or both have. Then their results are the same, but for the
  names of lists, how each of the runs was called and when it was made, and where its result is
  kept. -/
theorem boundaries_change_nothing (h : Fresh p c r) (h' : Fresh p' c' r')
    (hsegments : p'.lists.flatMap SegmentList.segments = p.lists.flatMap SegmentList.segments)
    (hlists : ∀ l ∈ p.lists, l.segments ≠ [] ∧ ¬ c.isOptionalList l.name ∧
      ¬ c.isParallelList l.name)
    (hlists' : ∀ l ∈ p'.lists, l.segments ≠ [] ∧ ¬ c'.isOptionalList l.name ∧
      ¬ c'.isParallelList l.name)
    (hoptional : ∀ s ∈ p.lists.flatMap SegmentList.segments,
      c'.isOptionalSegment s.name = c.isOptionalSegment s.name)
    (htimeout : r'.timeout = r.timeout) (hlistener : r'.listener = r.listener)
    (cs : List HostCall) (env : Environment) :
    (serveAll cs r' env).env = (serveAll cs r env).env ∧
      (serveAll cs r' env).subject.segments.map unlisted =
        (serveAll cs r env).subject.segments.map unlisted ∧
      ((serveAll cs r' env).subject.result = none ↔ (serveAll cs r env).subject.result = none) ∧
      ∀ result result', (serveAll cs r env).subject.result = some result →
        (serveAll cs r' env).subject.result = some result' →
          result'.unlisted =
            { result.unlisted with
              runId := r'.runId
              sequenceName := p'.name
              startedAt := r'.startedAt
              saveLocation := Resource.joinPath c'.outputDir r'.runId } := by
  have hneeded : ∀ l ∈ p.lists, ¬ c.isOptionalList l.name := fun l hl => (hlists l hl).2.1
  have hneeded' : ∀ l ∈ p'.lists, ¬ c'.isOptionalList l.name := fun l hl => (hlists' l hl).2.1
  -- the runs are made the same
  have hsame : Same r r' := by
    refine ⟨?_, h'.keyFrame.trans h.keyFrame.symm, h'.idle.1.trans h.idle.1.symm,
      h'.ticks.trans h.ticks.symm, htimeout, hlistener, by rw [h.idle.2, h'.idle.2]⟩
    rw [h.segments_unlisted hneeded, h'.segments_unlisted hneeded', hsegments]
    refine List.map_congr_left fun s hs => ?_
    have hmem : s.1 ∈ p.lists.flatMap SegmentList.segments := List.fst_mem_of_mem_zipIdx hs
    rw [hoptional s.1 hmem]
  have hfile : InFile p c r := ⟨h.sound, h.lists_eq ▸ listRuns_single hlists 1⟩
  have hfile' : InFile p' c' r' := ⟨h'.sound, h'.lists_eq ▸ listRuns_single hlists' 1⟩
  obtain ⟨hend, henv⟩ := hsame.serveAll cs (fun _ => ⟨hfile, hfile'⟩) env
  refine ⟨henv, hend.segments, ?_, fun result result' hr hr' => ?_⟩
  · rw [← Option.map_eq_none_iff (f := RunResult.gist), hend.result, Option.map_eq_none_iff]
  · -- how the runs were called stands in the result, and the rest is in the gist
    obtain ⟨hid, hname, hstart, hplace⟩ := heading_serveAll h'.idle.2 hr'
    have hgist := hend.result
    rw [hr, hr'] at hgist
    have hgist : result'.gist = result.gist := Option.some.inj hgist
    obtain ⟨hduration, hrest⟩ := Prod.mk.inj hgist
    obtain ⟨hsuccess, hentries⟩ := Prod.mk.inj hrest
    unfold RunResult.unlisted
    rw [hduration, hsuccess, hentries, hid, hname, hstart, hplace, h'.called.1, h'.called.2]

/-- A story of four segments, two of which nobody can tell the end of. -/
def story : List Segment :=
  [.ofName "come", riddle, { riddle with name := "watch" }, .ofName "leave"]

/-- The story in two lists. -/
def chapters : Playlist :=
  ⟨"chapters", [⟨"first", "", 1, story.take 2⟩, ⟨"second", "", 1, story.drop 2⟩]⟩

/-- The story with a list for each segment. -/
def leaflets : Playlist := ⟨"leaflets", story.map .ofSegment⟩

/-- Settings with which only one of the riddles may fail. -/
def mild : Config := { Config.default with optionalSegments := ["riddle"] }

/-- A run of the story. -/
def reading (p : Playlist) (runId : String) : PlaybackRun := .of p mild runId 0

/-- Nine nights, which are more than it takes. -/
def nights : List HostCall := List.replicate 9 night

/-- Read in chapters or in leaflets, the story ends in the same way: with the riddle that may not
fail. -/
theorem story_read_twice :
    ∃ result result', (serveAll nights (reading chapters "one") (.of .empty)).subject.result =
      some result ∧
      (serveAll nights (reading leaflets "two") (.of .empty)).subject.result = some result' ∧
      result.segments.map SegmentResult.outcome = [.completed, .failed, .failed, .notStarted] ∧
      result'.unlisted =
        { result.unlisted with
          runId := "two"
          sequenceName := "leaflets"
          startedAt := 0
          saveLocation := Resource.joinPath mild.outputDir "two" } := by
  have hfresh : Fresh chapters mild (reading chapters "one") := .of "one" 0
  have hfresh' : Fresh leaflets mild (reading leaflets "two") := .of "two" 0
  have hplain : ∀ p ∈ [chapters, leaflets], ∀ l ∈ p.lists,
      l.segments ≠ [] ∧ ¬ mild.isOptionalList l.name ∧ ¬ mild.isParallelList l.name := by
    decide
  obtain ⟨-, -, hend, hsame⟩ := boundaries_change_nothing hfresh hfresh' rfl
    (hplain chapters List.mem_cons_self)
    (hplain leaflets (List.mem_cons_of_mem _ List.mem_cons_self))
    (fun _ _ => rfl) rfl rfl nights (.of .empty)
  -- the first run is computed, and the second has its result from the theorem
  have houtcomes : (serveAll nights (reading chapters "one") (.of .empty)).subject.result.map
      (fun result => result.segments.map SegmentResult.outcome) =
        some [.completed, .failed, .failed, .notStarted] := by
    decide +kernel
  obtain ⟨result, hr, ho⟩ := Option.map_eq_some_iff.mp houtcomes
  have hended : (serveAll nights (reading leaflets "two") (.of .empty)).subject.result ≠ none := by
    rw [Ne, hend, hr]
    exact Option.some_ne_none result
  obtain ⟨result', hr'⟩ := Option.ne_none_iff_exists'.mp hended
  exact ⟨result, result', hr, hr', ho, hsame result result' hr hr'⟩

end PlaybackRun

end Playtest
