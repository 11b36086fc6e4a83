import Playtest.Proofs.Playback.Reachable

/-!
# What a run reports

The result of a run that has ended, in whatever way it ended.

* `PlaybackRun.result_reports_every_segment`: it has one entry for each segment of the playlist,
  which says what has come of that segment. No segment is still running by then,
* `PlaybackRun.ending_decides_success`: a run that ends because all lists have finished has
  completed every segment that it needs, and is a success unless one of them only gave up waiting
  for validations. A run that ends in any other way is none.

That all lists have finished says nothing about success by itself. It is `ListRun.Unbroken` that
makes the second theorem work: a segment that is needed and does not complete is never passed over.
-/

namespace Playtest

/-- How a segment is reported that has ended; `none` while it has not. -/
def SegmentState.outcome? : SegmentState → Option Outcome
  | completed => some .completed
  | timedOut => some .timedOut
  | failed => some .failed
  | skipped => some .notStarted
  | pending | awaitingEntry | executing | awaitingCompletion => none

namespace SegmentRun

variable {r : SegmentRun}

/-- A segment that has ended is reported by its state. -/
theorem outcome?_of_isTerminal (h : r.state.isTerminal) : r.state.outcome? = some r.outcome := by
  unfold outcome
  -- a state that is not terminal is ruled out by the hypothesis
  cases hs : r.state <;> rw [hs] at h <;> first | rfl | exact absurd h Bool.false_ne_true

/-- Reported as not started is what no tick has reached, or what was skipped. -/
theorem outcome_eq_notStarted_iff :
    r.outcome = .notStarted ↔ r.state = .pending ∨ r.state = .skipped := by
  unfold outcome
  cases r.state <;> simp

/-- The entry of a segment says how it came out. -/
theorem result_outcome : r.result.outcome = r.outcome := by
  unfold result
  split
  · next h => exact h.symm
  · rfl

/-- It is filed under the names and the number of the segment. -/
theorem result_names :
    r.result.listName = r.listName ∧ r.result.segmentName = r.name ∧
      r.result.segmentNumber = .ofNat r.number := by
  unfold result
  split <;> exact ⟨rfl, rfl, rfl⟩

/-- It says whether the segment is needed. -/
theorem result_isRequired : r.result.isRequired = r.isRequired := by
  unfold result
  split <;> rfl

/-- And whether it has passed. -/
theorem result_passed : r.result.passed = r.passed := by
  unfold result
  split
  · next h =>
    -- what has not started has not completed
    change false = (r.state == .completed && !r.validationsTimedOut)
    rcases outcome_eq_notStarted_iff.mp h with hs | hs <;> rw [hs] <;> rfl
  · rfl

/-- What is reported of a completed segment. -/
theorem result_of_completed (h : r.state = .completed) :
    r.result.outcome = .completed ∧ r.result.validationsTimedOut = r.validationsTimedOut ∧
      r.result.passed = !r.validationsTimedOut := by
  have ho : r.outcome = .completed := by rw [outcome, h]
  unfold result
  rw [ho, if_neg (by decide)]
  refine ⟨rfl, rfl, ?_⟩
  change (r.state == .completed && !r.validationsTimedOut) = _
  rw [h, beq_self_eq_true, Bool.true_and]

end SegmentRun

namespace ListRun

variable {l : ListRun}

/-- In a list that has finished in order, everything has ended. -/
theorem Sound.isTerminal (h : l.Sound) (hf : l.isFinished) : ∀ s ∈ l.segments, s.state.isTerminal :=
  List.forall_mem_append.mpr ⟨h.played, h.ended hf⟩

/-- In a list that has finished unbroken, what is needed has completed. -/
theorem Unbroken.completed (h : l.Unbroken) (hf : l.isFinished) :
    ∀ s ∈ l.segments, s.isRequired → s.state = .completed :=
  List.forall_mem_append.mpr ⟨h.played, fun s hs hr => absurd hr (h.ahead hf s hs)⟩

end ListRun

namespace PlaybackRun

variable {p : Playlist} {c : Config} {r : PlaybackRun} {result : RunResult}

/-- What is true of all segments is true list by list. -/
theorem forall_mem_segments {q : SegmentRun → Prop} :
    (∀ s ∈ r.segments, q s) ↔ ∀ l ∈ r.lists, ∀ s ∈ l.segments, q s :=
  List.forall_mem_flatMap

/-- When a run has ended, its result is about its segments, and all of them have ended. -/
theorem Sound.allEnded (h : Sound p c r) (hr : r.result = some result) :
    result.segments = r.segments.map SegmentRun.result ∧ ∀ s ∈ r.segments, s.state.isTerminal := by
  obtain ⟨hresult, hfinished⟩ := h.ended result hr
  exact ⟨hresult, forall_mem_segments.mpr fun l hl => (h.lists l hl).isTerminal (hfinished l hl)⟩

/-! ### Reports -/

/-- What the **report on a segment** says. Its place in the playlist is counted from one. -/
structure Reports (list : String) (s : Segment) (place : Nat) (t : SegmentRun)
    (entry : SegmentResult) : Prop where
  segment : t.segment = s
  number : t.number = place
  isTerminal : t.state.isTerminal
  result : entry = t.result
  listName : entry.listName = list
  segmentName : entry.segmentName = s.name
  segmentNumber : entry.segmentNumber = .ofNat place
  outcome : t.state.outcome? = some entry.outcome
  notStarted : entry.outcome = .notStarted ↔ t.ticks = 0

/-- The report on a segment, told by what its run was made as. -/
theorem reports_of_origin {list : String} {s : Segment} {place : Nat} {t : SegmentRun}
    (ho : t.origin = made c ((list, s), place)) (ht : t.state.isTerminal) (hs : t.Sound) :
    Reports list s place t t.result := by
  injection ho with hsegment hlist hnumber
  obtain ⟨hl, hn, hnum⟩ := t.result_names
  refine ⟨hsegment, hnumber, ht, rfl, hl.trans hlist, ?_, hnum.trans (congrArg _ hnumber), ?_, ?_⟩
  · rw [hn, SegmentRun.name, hsegment]
  · rw [SegmentRun.result_outcome, SegmentRun.outcome?_of_isTerminal ht]
  · rw [SegmentRun.result_outcome, SegmentRun.outcome_eq_notStarted_iff, hs.ticks_eq_zero_iff]

/-- **Every segment is reported once.** When a run has a result, then it has one entry for each
segment of the playlist, in their order. Every segment has ended, and those that were never reached
by a tick are the ones that are reported as not started. -/
theorem result_reports_every_segment (h : Reachable p c r) (hr : r.result = some result) :
    result.segments.length = p.segments.length ∧ r.segments.length = p.segments.length ∧
      ∀ i list s, p.segments[i]? = some (list, s) →
        ∃ t entry, r.segments[i]? = some t ∧ result.segments[i]? = some entry ∧
          Reports list s (i + 1) t entry := by
  have hs := h.sound
  obtain ⟨hresult, hfinished⟩ := hs.ended result hr
  refine ⟨?_, hs.length_segments, fun i list s hi => ?_⟩
  · rw [hresult, List.length_map, hs.length_segments]
  -- the segment at a place of the playlist is there in the run as well
  have hat := hs.segment_at i
  rw [hi] at hat
  obtain ⟨t, ht, ho⟩ := Option.map_eq_some_iff.mp hat
  have hmem : t ∈ r.segments := List.mem_of_getElem? ht
  -- it has ended, because with a result every list has finished
  have hterminal : t.state.isTerminal :=
    forall_mem_segments.mpr (fun l hl => (hs.lists l hl).isTerminal (hfinished l hl)) t hmem
  have hsound : t.Sound := forall_mem_segments.mpr (fun l hl => (hs.valid l hl).segments) t hmem
  refine ⟨t, t.result, ht, ?_, reports_of_origin ho hterminal hsound⟩
  rw [hresult, List.getElem?_map, ht]
  rfl

/-- The tour is aborted after three seconds, when its segments are in four different states. -/
theorem aborted_tour_reports :
    ∃ result, ((tourAfter lenient 3).abort "stop" (.of .empty)).subject.result = some result ∧
      result.segments.map SegmentResult.outcome = [.failed, .notStarted, .completed, .timedOut] ∧
        result.segments.length = 4 ∧
          ∃ t entry, result.segments[1]? = some entry ∧
            Reports "side" (.ofName "rest") 2 t entry := by
  have houtcomes : ((tourAfter lenient 3).abort "stop" (.of .empty)).subject.result.map
      (fun result => result.segments.map SegmentResult.outcome) =
        some [.failed, .notStarted, .completed, .timedOut] := by rfl
  obtain ⟨result, hr, ho⟩ := Option.map_eq_some_iff.mp houtcomes
  obtain ⟨hlength, -, hall⟩ :=
    result_reports_every_segment ((tourAfter_reachable lenient 3).abort "stop" (.of .empty)) hr
  obtain ⟨t, entry, -, hentry, hreports⟩ := hall 1 "side" (.ofName "rest") rfl
  exact ⟨result, hr, ho, hlength, t, entry, hentry, hreports⟩

/-! ### Success -/

/-- The run **needs** a segment: neither its list nor the segment itself is named optional. -/
def Needs (c : Config) (list : String) (s : Segment) : Prop :=
  list ∉ c.optionalLists ∧ s.name ∉ c.optionalSegments

/-- What is needed is made required. -/
theorem needs_iff {list : String} {s : Segment} (number : Nat) :
    Needs c list s ↔ (made c ((list, s), number)).isRequired := by
  change _ ↔ (!c.optionalLists.contains list && !c.optionalSegments.contains s.name) = true
  rw [Bool.and_eq_true, Bool.not_eq_true', Bool.not_eq_true', ← Bool.not_eq_true,
    ← Bool.not_eq_true, List.contains_iff_mem, List.contains_iff_mem]
  rfl

/-- The entry of a result on a segment that the run needs. -/
def NeededEntry (p : Playlist) (c : Config) (result : RunResult) (entry : SegmentResult) : Prop :=
  ∃ (i : Nat) (list : String) (s : Segment),
    p.segments[i]? = some (list, s) ∧ Needs c list s ∧ result.segments[i]? = some entry

/-- The needed entries are the ones on the segments that are required. -/
theorem Valid.neededEntry_iff (h : Valid p c r)
    (hr : result.segments = r.segments.map SegmentRun.result) {entry : SegmentResult} :
    NeededEntry p c result entry ↔ ∃ t ∈ r.segments, t.isRequired ∧ entry = t.result := by
  have hentry : ∀ {i : Nat} {t : SegmentRun}, r.segments[i]? = some t →
      result.segments[i]? = some t.result := by
    intro i t ht
    rw [hr, List.getElem?_map, ht]
    rfl
  constructor
  · -- the entry stands in the place of its segment
    rintro ⟨i, list, s, hi, hneeds, he⟩
    have hat := h.segment_at i
    rw [hi] at hat
    obtain ⟨t, ht, ho⟩ := Option.map_eq_some_iff.mp hat
    rw [hentry ht] at he
    refine ⟨t, List.mem_of_getElem? ht, ?_, (Option.some.inj he).symm⟩
    exact (congrArg SegmentRun.isRequired ho).trans ((needs_iff (i + 1)).mp hneeds)
  · -- and the segment stands in the place of its entry
    rintro ⟨t, ht, hreq, rfl⟩
    obtain ⟨i, hi⟩ := List.mem_iff_getElem?.mp ht
    have hat := h.segment_at i
    rw [hi] at hat
    obtain ⟨⟨list, s⟩, hp, ho⟩ := Option.map_eq_some_iff.mp hat.symm
    refine ⟨i, list, s, hp, (needs_iff (i + 1)).mpr ?_, hentry hi⟩
    exact (congrArg SegmentRun.isRequired ho).trans hreq

/-- A run that ran through succeeds if it has completed all that it needs in earnest. -/
theorem success_iff (h : ∀ s ∈ r.segments, s.isRequired → s.state = .completed) :
    (r.outcome true).success ↔
      ∀ s ∈ r.segments, s.isRequired → s.result.validationsTimedOut = false := by
  change (true && (r.segments.map SegmentRun.result).all fun s => !s.isRequired || s.passed) =
    true ↔ _
  rw [Bool.true_and, List.all_map, List.all_eq_true]
  refine forall_congr' fun s => forall_congr' fun hs => ?_
  change (!s.result.isRequired || s.result.passed) = true ↔ _
  rw [SegmentRun.result_isRequired]
  -- what is not required has no say
  by_cases hr : s.isRequired
  · obtain ⟨-, hv, hp⟩ := SegmentRun.result_of_completed (h s hs hr)
    rw [hp, hv, hr, Bool.not_true, Bool.false_or, Bool.not_eq_true', imp_iff_right rfl]
  · simp [hr]

/-- What is true of all needed entries is true of all segments that are required. -/
theorem Valid.forall_neededEntry (h : Valid p c r)
    (hr : result.segments = r.segments.map SegmentRun.result) {q : SegmentResult → Prop} :
    (∀ entry, NeededEntry p c result entry → q entry) ↔
      ∀ s ∈ r.segments, s.isRequired → q s.result := by
  constructor
  · exact fun hq s hs hreq => hq s.result ((h.neededEntry_iff hr).mpr ⟨s, hs, hreq, rfl⟩)
  · intro hq entry he
    obtain ⟨s, hs, hreq, rfl⟩ := (h.neededEntry_iff hr).mp he
    exact hq s hs hreq

/-- What is needed has completed in a run that has run through. -/
theorem Sound.ranThrough (h : Sound p c r) (hr : r.result = none)
    (hf : ∀ l ∈ r.lists, l.isFinished) :
    (∀ entry, NeededEntry p c (r.outcome true) entry → entry.outcome = .completed) ∧
      ((r.outcome true).success ↔
        ∀ entry, NeededEntry p c (r.outcome true) entry → entry.validationsTimedOut = false) := by
  have hdone : ∀ s ∈ r.segments, s.isRequired → s.state = .completed :=
    forall_mem_segments.mpr fun l hl => (h.unbroken hr l hl).completed (hf l hl)
  rw [h.forall_neededEntry rfl, h.forall_neededEntry rfl]
  exact ⟨fun s hs hreq => (SegmentRun.result_of_completed (hdone s hs hreq)).1, success_iff hdone⟩

/-- **How the run ends decides about success.** If it ends in a tick that nothing disturbs, then all
of its lists have finished, all segments that it needs have completed, and it is a success unless
one of them has given up waiting for validations. If it is broken off, for whatever reason, it is no
success. -/
theorem ending_decides_success (h : Reachable p c r) (hr : r.result = none) :
    (∀ b env result, Undisturbed b r env → (r.tick b env).subject.result = some result →
      (∀ l ∈ (r.tick b env).subject.lists, l.isFinished) ∧
        result.segments.length = p.segments.length ∧
          (∀ entry, NeededEntry p c result entry → entry.outcome = .completed) ∧
            (result.success ↔
              ∀ entry, NeededEntry p c result entry → entry.validationsTimedOut = false)) ∧
      (∀ b env reason lists env', Cause b r env reason lists env' →
        ∃ result, (r.tick b env).subject.result = some result ∧ result.success = false) ∧
        ∀ reason env, ∃ result,
          (r.abort reason env).subject.result = some result ∧ result.success = false := by
  refine ⟨fun b env result hu ht => ?_, fun b env reason lists env' hc => ?_, fun reason env => ?_⟩
  · -- the round has not ended the run, and so it is still unbroken when its lists are done
    have hs := h.sound.played_sound hr hu.not_fatal
    have hnone : (r.played b env).result = none := (played_midway b r env).result.trans hr
    rw [(tick_of_undisturbed hr hu).2] at ht ⊢
    split at ht
    · next hall =>
      have hf := List.all_eq_true.mp hall
      cases ht
      rw [if_pos hall]
      refine ⟨hf, ?_, hs.ranThrough hnone hf⟩
      exact (List.length_map _).trans hs.length_segments
    · rw [hnone] at ht
      cases ht
  · obtain ⟨r', -, ht, -⟩ := tick_of_cause hr hc
    rw [ht]
    exact ⟨_, rfl, rfl⟩
  · rw [abort_subject hr]
    exact ⟨_, rfl, rfl⟩

/-- In its fourth second the tour ends well, although its optional list has failed. A signal in that
very second, or an abort before it, makes it fail. -/
theorem tour_ends_well :
    (∃ result, (tourAfter lenient 4).result = some result ∧ result.success ∧
      (∀ l ∈ (tourAfter lenient 4).lists, l.isFinished) ∧
        ∀ entry, NeededEntry tour lenient result entry →
          entry.outcome = .completed ∧ entry.validationsTimedOut = false) ∧
      (∃ result,
        ((tourAfter lenient 3).tick (second true) (.of .empty)).subject.result = some result ∧
        result.success = false) ∧
        ∃ result, ((tourAfter lenient 3).abort "stop" (.of .empty)).subject.result = some result ∧
          result.success = false := by
  have hnone : (tourAfter lenient 3).result = none := by rfl
  have hsuccess : (tourAfter lenient 4).result.map RunResult.success = some true := by rfl
  obtain ⟨result, hr, hs⟩ := Option.map_eq_some_iff.mp hsuccess
  -- a run that succeeds was not disturbed in its last second
  have hu : Undisturbed (second false) (tourAfter lenient 3) (.of .empty) := by
    refine undisturbed_of_success hnone fun result' hr' => ?_
    rw [← Option.some.inj (hr.symm.trans hr')]
    exact hs
  obtain ⟨hthrough, hcause, habort⟩ := ending_decides_success (tourAfter_reachable lenient 3) hnone
  obtain ⟨hfinished, -, hcompleted, hiff⟩ := hthrough (second false) (.of .empty) result hu hr
  refine ⟨⟨result, hr, hs, hfinished, fun entry he => ⟨hcompleted entry he, hiff.mp hs entry he⟩⟩,
    ?_, habort "stop" (.of .empty)⟩
  exact hcause (second true) (.of .empty) _ _ _ (.signalled ⟨⟨0, false⟩, rfl, rfl⟩)

end PlaybackRun

end Playtest
