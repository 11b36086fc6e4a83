import Playtest.Proofs.Clock
import Playtest.Proofs.Playback.Tick
import Playtest.Proofs.Segment.History

/-!
# Runs of a playlist

What is true of a run at all times, from the moment it is made, in whatever order it is ticked and
aborted.

* `PlaybackRun.Reachable` are the runs of a playlist with some settings. Every call may come with an
  environment of its own, so that nothing is assumed about who else works with it in between, nor
  about the answers of handlers, of the vision service or of validations,
* `PlaybackRun.Sound` is the invariant, and `PlaybackRun.Reachable.sound` says that it is one. It
  has two layers: `PlaybackRun.Valid` is true of a run in the middle of a tick, too, and is silent
  about the result,
* `PlaybackRun.Valid.segment_at` numbers the segments: the run of a playlist has one run for each of
  its segments, in their order.
-/

namespace Playtest

namespace ListRun

variable {l : ListRun}

/-- The list **has not been touched** since it was made. -/
structure Untouched (l : ListRun) : Prop where
  state : l.state = .notStarted
  played : l.played = []
  ahead : ∀ s ∈ l.ahead, s = s.origin ∧ (l.isOptional → ¬ s.isRequired)

theorem Untouched.not_isFinished (h : l.Untouched) : ¬ l.isFinished := by
  rw [isFinished_iff, h.state]
  exact ListState.noConfusion

theorem Untouched.segments_eq (h : l.Untouched) : l.segments = l.ahead := by
  rw [segments, h.played, List.nil_append]

/-- Nobody in it has been reached. -/
theorem Untouched.pending (h : l.Untouched) : ∀ s ∈ l.ahead, s.state = .pending := by
  intro s hs
  rw [(h.ahead s hs).1]
  rfl

/-- **A list is made in order.** -/
theorem Untouched.sound (h : l.Untouched) : l.Sound where
  segments := by
    intro s hs
    rw [h.segments_eq] at hs
    rw [(h.ahead s hs).1]
    exact .of ..
  optional := by
    intro ho s hs
    rw [h.segments_eq] at hs
    exact (h.ahead s hs).2 ho
  played := by
    rw [h.played]
    rintro s ⟨⟩
  current := by
    intro _ s hs
    -- nothing has begun, so nothing has ended
    rw [h.pending s (List.mem_of_mem_head? hs)]
    exact Bool.false_ne_true
  upcoming := fun _ s hs => h.pending s (List.mem_of_mem_tail hs)
  ended := fun hf => absurd hf h.not_isFinished

/-- And it is made unbroken. -/
theorem Untouched.unbroken (h : l.Untouched) : l.Unbroken where
  played := by
    rw [h.played]
    rintro s ⟨⟩
  ahead := fun hf => absurd hf h.not_isFinished

/-- It is as it was made. -/
theorem Untouched.origin_eq (h : l.Untouched) : l.origin = l := by
  have ha : l.ahead.map SegmentRun.origin = l.ahead := calc
    l.ahead.map SegmentRun.origin = l.ahead.map id :=
      List.map_congr_left fun s hs => (h.ahead s hs).1.symm
    _ = l.ahead := List.map_id l.ahead
  unfold origin
  rw [h.segments_eq, ha, ← h.played, ← h.state]

end ListRun

theorem Config.limit?_pos {timeout : Option Float} {limit : Float}
    (h : Config.limit? timeout = some limit) : 0.0 < limit :=
  of_decide_eq_true (Option.filter_eq_some_iff.mp h).2

namespace PlaybackRun

variable {p : Playlist} {c : Config} {b : Beat} {r : PlaybackRun} {env : Environment}

/-! ### How a run is made -/

/-- The run of a segment with its list and its number, as the settings want it. -/
def made (c : Config) (x : (String × Segment) × Nat) : SegmentRun :=
  .of x.1.2 x.1.1 x.2 (!c.isOptionalList x.1.1 && !c.isOptionalSegment x.1.2.name)

/-- The runs of the segments of a list, one by one. -/
theorem segmentRuns_eq (c : Config) (list : String) (number : Nat) (ss : List Segment) :
    segmentRuns c list number ss = ((ss.map (list, ·)).zipIdx number).map (made c) := by
  induction ss generalizing number with
  | nil => rfl
  | cons s rest ih => exact congrArg (List.cons _) (ih (number + 1))

/-- Numbers go on from one list to the next. -/
theorem flatMap_listRuns (c : Config) (name : String) (number : Nat) (ls : List SegmentList) :
    (listRuns c number ls).flatMap ListRun.segments =
      ((Playlist.segments ⟨name, ls⟩).zipIdx number).map (made c) := by
  induction ls generalizing number with
  | nil => rfl
  | cons l rest ih =>
    change segmentRuns c l.name number l.segments ++ List.flatMap _ _ = _
    rw [ih, segmentRuns_eq, ← List.map_append]
    congr 1
    change _ = (l.segments.map (l.name, ·) ++ Playlist.segments ⟨name, rest⟩).zipIdx number
    rw [List.zipIdx_append, List.length_map]

/-- A segment of an optional list is not required. -/
theorem segmentRuns_untouched (c : Config) (list : String) (number : Nat) (ss : List Segment) :
    ∀ s ∈ segmentRuns c list number ss,
      s = s.origin ∧ (c.isOptionalList list → ¬ s.isRequired) := by
  induction ss generalizing number with
  | nil => rintro s ⟨⟩
  | cons s rest ih =>
    refine List.forall_mem_cons.mpr ⟨⟨rfl, fun ho => ?_⟩, ih _⟩
    change ¬ (!c.isOptionalList list && !c.isOptionalSegment s.name) = true
    rw [ho]
    exact Bool.false_ne_true

/-- The lists in front decide only about the numbers of the ones behind. -/
theorem listRuns_append (c : Config) (number : Nat) (front back : List SegmentList) :
    ∃ n, listRuns c number (front ++ back) = listRuns c number front ++ listRuns c n back := by
  induction front generalizing number with
  | nil => exact ⟨number, rfl⟩
  | cons l rest ih =>
    obtain ⟨n, hn⟩ := ih (number + l.segments.length)
    exact ⟨n, congrArg (List.cons _) hn⟩

/-- Each run of a list is what the list alone would be run as, but for the numbers. -/
theorem exists_of_mem_listRuns {number : Nat} {ls : List SegmentList} {l : ListRun}
    (h : l ∈ listRuns c number ls) : ∃ k ∈ ls, ∃ n, listRuns c n [k] = [l] := by
  induction ls generalizing number with
  | nil => cases h
  | cons k rest ih =>
    rcases List.mem_cons.mp h with rfl | h
    · exact ⟨k, List.mem_cons_self, number, rfl⟩
    · obtain ⟨k', hk', hn⟩ := ih h
      exact ⟨k', List.mem_cons_of_mem _ hk', hn⟩

/-- No list has been touched when a run is made. -/
theorem listRuns_untouched (c : Config) (number : Nat) (ls : List SegmentList) :
    ∀ l ∈ listRuns c number ls, l.Untouched := by
  induction ls generalizing number with
  | nil => rintro l ⟨⟩
  | cons l rest ih =>
    exact List.forall_mem_cons.mpr ⟨⟨rfl, rfl, segmentRuns_untouched c l.name number l.segments⟩,
      ih _⟩

/-- A run of the playlist **that has not begun**, whatever it was told before. -/
inductive Fresh (p : Playlist) (c : Config) : PlaybackRun → Prop
  | of (runId : String) (startedAt : Int64) : Fresh p c (.of p c runId startedAt)
  | withTimeout {r : PlaybackRun} (h : Fresh p c r) (timeout : Option Float) :
      Fresh p c (r.withTimeout timeout)
  | withListener {r : PlaybackRun} (h : Fresh p c r) (listener : Abort.Listener) :
      Fresh p c (r.withListener listener)
  | withReporter {r : PlaybackRun} (h : Fresh p c r) (reporter : Report.Reporter) :
      Fresh p c (r.withReporter reporter)

/-- Whatever it was told, a run that has not begun is as it was made. -/
theorem Fresh.eq (h : Fresh p c r) :
    r = { PlaybackRun.of p c r.runId r.startedAt with
      timeout := r.timeout, listener := r.listener, reporter := r.reporter } := by
  induction h with
  | of => rfl
  | withTimeout _ timeout ih => exact congrArg (PlaybackRun.withTimeout · timeout) ih
  | withListener _ listener ih => exact congrArg (PlaybackRun.withListener · listener) ih
  | withReporter _ reporter ih => exact congrArg (PlaybackRun.withReporter · reporter) ih

/-- The lists of a run that has not begun are the ones that it was made with. -/
theorem Fresh.lists_eq (h : Fresh p c r) : r.lists = listRuns c 1 p.lists :=
  congrArg PlaybackRun.lists h.eq

/-- It has not counted a tick. -/
theorem Fresh.ticks (h : Fresh p c r) : r.ticks = 0 := congrArg PlaybackRun.ticks h.eq

theorem Fresh.keyFrame (h : Fresh p c r) : r.keyFrame = none := congrArg PlaybackRun.keyFrame h.eq

/-- No time has passed for a run that has not begun, and nothing has come of it. -/
theorem Fresh.idle (h : Fresh p c r) : r.elapsed = 0.0 ∧ r.result = none :=
  ⟨congrArg PlaybackRun.elapsed h.eq, congrArg PlaybackRun.result h.eq⟩

/-- The **runs of the playlist**, after any calls in any order. Each call comes with an environment
of its own. -/
inductive Reachable (p : Playlist) (c : Config) : PlaybackRun → Prop
  | fresh {r : PlaybackRun} (h : Fresh p c r) : Reachable p c r
  | tick {r : PlaybackRun} (h : Reachable p c r) (b : Beat) (env : Environment) :
      Reachable p c (r.tick b env).subject
  | abort {r : PlaybackRun} (h : Reachable p c r) (reason : String) (env : Environment) :
      Reachable p c (r.abort reason env).subject

/-! ### The invariant -/

/-- What is true of a run also in the middle of a tick that breaks it off. -/
structure Valid (p : Playlist) (c : Config) (r : PlaybackRun) : Prop where
  origin : r.lists.map ListRun.origin = listRuns c 1 p.lists
  valid : ∀ l ∈ r.lists, l.Valid
  elapsed : 0.0 ≤ r.elapsed
  timeout : ∀ timeout, r.timeout = some timeout → 0.0 < timeout

/-- The **invariant** of a run of the playlist. Until it has ended, no segment that it needs has had
its turn without completing, and then its result is about its segments, and all its lists have
finished. -/
structure Sound (p : Playlist) (c : Config) (r : PlaybackRun) : Prop extends Valid p c r where
  lists : ∀ l ∈ r.lists, l.Sound
  ordered : Ordered r.lists
  unbroken : r.result = none → ∀ l ∈ r.lists, l.Unbroken
  ended : ∀ result, r.result = some result →
    result.segments = r.segments.map SegmentRun.result ∧ ∀ l ∈ r.lists, l.isFinished

/-- **A run is made sound**, whatever it is told before it begins. -/
theorem Fresh.sound (h : Fresh p c r) : Sound p c r := by
  induction h with
  | of runId startedAt =>
    have hl := listRuns_untouched c 1 p.lists
    refine ⟨⟨?_, fun l hm => (hl l hm).sound.toValid, ?_, ?_⟩, fun l hm => (hl l hm).sound, ?_,
      fun _ l hm => (hl l hm).unbroken, fun _ hr => by cases hr⟩
    · exact (List.map_congr_left fun l hm => (hl l hm).origin_eq).trans (List.map_id _)
    · exact show (0.0 : Float) ≤ 0.0 by decide
    · exact fun t ht => Config.limit?_pos ht
    · exact List.pairwise_of_forall_mem_list fun _ _ k hk hs => absurd (hl k hk).state hs
  -- of all that it may be told, only the time limit is part of the invariant
  | withTimeout _ _ ih => exact { ih with timeout := fun t ht => Config.limit?_pos ht }
  | withListener _ _ ih => exact { ih with }
  | withReporter _ _ ih => exact { ih with }

/-- Lists that have all finished are in order. -/
theorem ordered_of_finished {ls : List ListRun} (h : ∀ l ∈ ls, l.isFinished) : Ordered ls :=
  List.pairwise_of_forall_mem_list fun l hl _ _ _ => .inl (h l hl)

/-- A run ends well when all of its lists have finished. -/
theorem Valid.ended_sound (h : Valid p c r) (hl : ∀ l ∈ r.lists, l.Sound)
    (hf : ∀ l ∈ r.lists, l.isFinished) (ranThrough : Bool) : Sound p c (r.ended ranThrough) where
  toValid := { h with }
  lists := hl
  ordered := ordered_of_finished hf
  unbroken := fun hr => by cases hr
  ended := by
    rintro _ ⟨⟩
    exact ⟨rfl, hf⟩

/-- Breaking a run off brings it into order, wherever it was. -/
theorem Valid.cutOff_sound (h : Valid p c r) (reason : String) :
    Sound p c ((r.cutOff reason).ended false) := by
  have hl : ∀ l ∈ (r.cutOff reason).lists, l.Sound :=
    List.forall_mem_map.mpr fun l hl => (h.valid l hl).cutOff reason
  -- what the lists were made with is not touched by that
  have hv : Valid p c (r.cutOff reason) := by
    refine { h with origin := ?_, valid := fun l hm => (hl l hm).toValid }
    rw [← h.origin]
    change (r.lists.map _).map _ = _
    rw [List.map_map]
    exact List.map_congr_left fun l _ => ListRun.origin_cutOff
  exact hv.ended_sound hl (List.forall_mem_map.mpr fun _ _ => rfl) false

/-- Time does not run backwards. -/
theorem zero_le_counted (h : 0.0 ≤ r.elapsed) (delta : Float) :
    0.0 ≤ (r.counted delta).elapsed := by
  change 0.0 ≤ if r.ticks = 0 then r.elapsed else r.elapsed + forward delta
  split
  · exact h
  · exact Clock.zero_le_add h (Clock.zero_le_forward delta)

/-- What plays a part of the lists leaves the run valid. -/
theorem Valid.midway {lists : List ListRun} {r' : PlaybackRun} (h : Valid p c r)
    (hm : Midway b r lists r') (ho : lists.map ListRun.origin = r.lists.map ListRun.origin)
    (hl : ∀ l ∈ lists, l.Valid) : Valid p c r' where
  origin := by rw [hm.lists, ho, h.origin]
  valid := by rwa [hm.lists]
  elapsed := hm.elapsed ▸ zero_le_counted h.elapsed b.delta
  timeout := hm.timeout ▸ h.timeout

/-- The lists at the time of a cause are those of the run, and valid. -/
theorem Cause.valid {reason : String} {lists : List ListRun} {env' : Environment}
    (hc : Cause b r env reason lists env') (h : ∀ l ∈ r.lists, l.Valid) :
    lists.map ListRun.origin = r.lists.map ListRun.origin ∧ ∀ l ∈ lists, l.Valid := by
  have hr := tickLists_round (r.moment b env) r.lists (r.opened b env)
  rcases hc.lists_eq with rfl | rfl
  · exact ⟨rfl, h⟩
  · exact ⟨hr.map_origin, hr.valid h⟩

/-- The run when the lists have played a round to the end. -/
theorem Sound.played_sound (h : Sound p c r) (hr : r.result = none)
    (hf : (r.round b env).subject.fatal = none) : Sound p c (r.played b env) := by
  have hround := tickLists_round (r.moment b env) r.lists (r.opened b env)
  have hm := played_midway b r env
  have hl := hround.sound hf h.lists
  refine ⟨h.toValid.midway hm hround.map_origin fun l hm => (hl l hm).toValid, hl,
    hround.ordered hf h.ordered, fun _ l hm => ?_, fun result hn => ?_⟩
  · exact (hround.unbroken hf (fun l hm => ⟨h.valid l hm, h.unbroken hr l hm⟩) l hm).2
  · rw [hm.result, hr] at hn
    cases hn

/-- **A tick keeps the invariant.** -/
theorem Sound.tick (h : Sound p c r) (b : Beat) (env : Environment) :
    Sound p c (r.tick b env).subject := by
  cases hr : r.result with
  | some result =>
    rw [tick_of_ended hr]
    exact h
  | none =>
    rcases undisturbed_or_cause b r env with hu | ⟨reason, lists, env', hc⟩
    · have hp := h.played_sound hr hu.not_fatal
      rw [(tick_of_undisturbed hr hu).2]
      split
      · next hall => exact hp.toValid.ended_sound hp.lists (List.all_eq_true.mp hall) true
      · exact hp
    · -- in the middle of a fatal tick the run is only valid, and cutting it off repairs that
      obtain ⟨r', hm, ht, -⟩ := tick_of_cause hr hc
      obtain ⟨ho, hl⟩ := hc.valid h.valid
      rw [ht]
      exact (h.toValid.midway hm ho hl).cutOff_sound reason

/-- So does an attempt to end the run. -/
theorem Sound.abort (h : Sound p c r) (reason : String) (env : Environment) :
    Sound p c (r.abort reason env).subject := by
  cases hr : r.result with
  | some result =>
    rw [abort_of_ended hr]
    exact h
  | none =>
    rw [abort_subject hr]
    exact h.toValid.cutOff_sound reason

/-- **Every run of the playlist is sound.** -/
theorem Reachable.sound (h : Reachable p c r) : Sound p c r := by
  -- induction over the calls
  induction h with
  | fresh h => exact h.sound
  | tick _ b env ih => exact ih.tick b env
  | abort _ reason env ih => exact ih.abort reason env

/-! ### The segments of a run -/

/-- The segments of a run are made from those of the playlist. -/
theorem Valid.segments_origin (h : Valid p c r) :
    r.segments.map SegmentRun.origin = (p.segments.zipIdx 1).map (made c) := calc
  r.segments.map SegmentRun.origin = (r.lists.map ListRun.origin).flatMap ListRun.segments := by
    unfold PlaybackRun.segments
    rw [List.map_flatMap, List.flatMap_map]
    rfl
  _ = (p.segments.zipIdx 1).map (made c) := by
    rw [h.origin]
    exact flatMap_listRuns c p.name 1 p.lists

/-- **The run has one segment for each of the playlist**, at the same place and with its number. -/
theorem Valid.segment_at (h : Valid p c r) (i : Nat) :
    r.segments[i]?.map SegmentRun.origin = p.segments[i]?.map fun x => made c (x, i + 1) := by
  have ho : (r.segments.map SegmentRun.origin)[i]? = ((p.segments.zipIdx 1).map (made c))[i]? :=
    congrArg (·[i]?) h.segments_origin
  rw [List.getElem?_map, List.getElem?_map, List.getElem?_zipIdx, Option.map_map] at ho
  rw [ho, Nat.add_comm]
  rfl

theorem Valid.length_segments (h : Valid p c r) : r.segments.length = p.segments.length := by
  have hl := congrArg List.length h.segments_origin
  rwa [List.length_map, List.length_map, List.length_zipIdx] at hl

/-- Segments are made as runs of segments. -/
theorem segmentRuns_reachable (c : Config) (list : String) (number : Nat) (ss : List Segment) :
    ∀ s ∈ segmentRuns c list number ss, s.Reachable := by
  intro s hs
  rw [(segmentRuns_untouched c list number ss s hs).1]
  exact .of ..

/-- So are the segments of all lists. -/
theorem listRuns_reachable (c : Config) (number : Nat) (ls : List SegmentList) :
    ∀ l ∈ listRuns c number ls, ∀ s ∈ l.segments, s.Reachable := by
  induction ls generalizing number with
  | nil => rintro l ⟨⟩
  | cons l rest ih =>
    exact List.forall_mem_cons.mpr ⟨segmentRuns_reachable c l.name number l.segments, ih _⟩

/-- Cutting a run off does to its segments what breaking them off does. -/
theorem cutOff_reachable (h : ∀ l ∈ r.lists, ∀ s ∈ l.segments, s.Reachable) (reason : String) :
    ∀ l ∈ (r.cutOff reason).lists, ∀ s ∈ l.segments, s.Reachable := by
  refine List.forall_mem_map.mpr fun l hl => ?_
  rw [ListRun.segments_cutOff]
  refine List.forall_mem_map.mpr fun s hs => ?_
  rw [← SegmentRun.abort_subject (.of .empty) reason]
  exact .abort reason _ (h l hl s hs)

/-- A round does nothing to segments but ticking and skipping them. -/
theorem round_reachable (h : ∀ l ∈ r.lists, ∀ s ∈ l.segments, s.Reachable) (b : Beat)
    (env : Environment) :
    ∀ l ∈ (r.round b env).subject.lists, ∀ s ∈ l.segments, s.Reachable := by
  refine (tickLists_round (r.moment b env) r.lists (r.opened b env)).forall_mem
    (p := fun l => ∀ s ∈ l.segments, s.Reachable) (fun l env' hf hl _ => ?_) h
  refine (ListRun.tick_plays hf).forall_mem (fun s hs => .tick _ _ hs) (fun s hs => ?_) hl
  rw [← (SegmentRun.skip_eq env').1]
  exact .skip env' hs

/-- **The segments of a run are runs of segments**: whatever the run is told, nothing but ticks,
aborts and skips happens to them. -/
theorem Reachable.lists_reachable (h : Reachable p c r) :
    ∀ l ∈ r.lists, ∀ s ∈ l.segments, s.Reachable := by
  induction h with
  | fresh h =>
    rw [h.lists_eq]
    exact listRuns_reachable c 1 p.lists
  | @tick r _ b env ih =>
    cases hr : r.result with
    | some result =>
      rw [tick_of_ended hr]
      exact ih
    | none =>
      rcases undisturbed_or_cause b r env with hu | ⟨reason, lists, env', hc⟩
      · rw [(tick_of_undisturbed hr hu).2]
        split <;> exact round_reachable ih b env
      · -- the segments are cut off as they were before the round, or as the round has left them
        obtain ⟨r', hm, ht, -⟩ := tick_of_cause hr hc
        rw [ht]
        refine cutOff_reachable ?_ reason
        rw [hm.lists]
        rcases hc.lists_eq with rfl | rfl
        · exact ih
        · exact round_reachable ih b env
  | @abort r _ reason env ih =>
    cases hr : r.result with
    | some result =>
      rw [abort_of_ended hr]
      exact ih
    | none =>
      rw [abort_subject hr]
      exact cutOff_reachable ih reason

/-- Wherever they stand in the run. -/
theorem Reachable.segments_reachable (h : Reachable p c r) : ∀ s ∈ r.segments, s.Reachable := by
  intro s hs
  obtain ⟨l, hl, hs⟩ := List.mem_flatMap.mp hs
  exact h.lists_reachable l hl s hs

/-- Each segment of a run is one of the playlist. -/
theorem Valid.segment_mem (h : Valid p c r) {s : SegmentRun} (hs : s ∈ r.segments) :
    ∃ l ∈ p.lists, s.segment ∈ l.segments := by
  -- what it was made as is one of the numbered segments of the playlist
  have horigin : s.origin ∈ (p.segments.zipIdx 1).map (made c) := by
    rw [← h.segments_origin]
    exact List.mem_map_of_mem hs
  obtain ⟨x, hx, hmade⟩ := List.mem_map.mp horigin
  have hsegment : x.1.2 = s.segment := congrArg SegmentRun.segment hmade
  have hmem : x.1 ∈ p.segments := List.fst_mem_of_mem_zipIdx hx
  obtain ⟨l, hl, hmem⟩ := List.mem_flatMap.mp hmem
  obtain ⟨segment, hin, heq⟩ := List.mem_map.mp hmem
  refine ⟨l, hl, ?_⟩
  rw [← hsegment, ← heq]
  exact hin

/-! ### A tour

A small playlist, to see how things come out: a list that may fail and does, and one behind it that
is played at the same time. -/

/-- A tour of two lists. -/
def tour : Playlist where
  name := "tour"
  lists :=
    [⟨"side", "", 1,
      [{ Segment.ofName "watch" with endCriteria := [.of (.custom "unknown" .null)] },
        .ofName "rest"]⟩,
     ⟨"main", "", 1, [.ofName "enter", .ofName "leave"]⟩]

/-- Settings with which the first list may fail. -/
def lenient : Config := { Config.default with optionalLists := ["side"], parallelLists := ["side"] }

/-- Settings with which nothing may fail. -/
def strict : Config := { Config.default with parallelLists := ["side"] }

/-- A second without anything to see, and whether there is a signal to abort. -/
def second (isSignalled : Bool) : Beat := ⟨1.0, .empty, ⟨if isSignalled then 1 else 0, 1, 1⟩⟩

/-- The tour after some seconds. It listens for a signal, and has a limit of ten seconds. -/
def tourAfter (c : Config) : Nat → PlaybackRun
  | 0 => ((PlaybackRun.of tour c "a-tour" 0).withTimeout (some 10.0)).withListener ⟨0, false⟩
  | n + 1 => ((tourAfter c n).tick (second false) (.of .empty)).subject

theorem tourAfter_reachable (c : Config) (n : Nat) : Reachable tour c (tourAfter c n) := by
  induction n with
  | zero => exact .fresh (((Fresh.of "a-tour" 0).withTimeout _).withListener _)
  | succ n ih => exact ih.tick _ _

end PlaybackRun

end Playtest
