import Playtest.Proofs.Playback.Reachable

/-!
# Breaking a run off

What a tick does that finds a cause to break the run off, and what a tick has not found that lets
the run go on (`PlaybackRun.cause_ends_run`).

`SegmentRun.BrokenOff` says what becomes of each segment. It compares the segment after the tick
with what it was when the cause was found: in a fatal tick some segments may have played by then,
and the one that is the cause has.
-/

namespace Playtest

namespace SegmentRun

/-- What becomes of a segment **when the run is broken off**: one that is under way times out for
that reason, one that no tick has reached is skipped, and one that has ended stays as it is. None is
ticked. -/
structure BrokenOff (reason : String) (s s' : SegmentRun) : Prop where
  underWay : s.ticks ≠ 0 → ¬ s.state.isTerminal → s'.state = .timedOut ∧ s'.detail = some reason
  unreached : s.ticks = 0 → s'.state = .skipped
  ended : s.state.isTerminal → s' = s
  ticks : s'.ticks = s.ticks
  elapsed : s'.elapsed = s.elapsed

/-- A segment that has ended is not broken off. -/
theorem cutOff_of_isTerminal {s : SegmentRun} (reason : String) (h : s.state.isTerminal) :
    s.cutOff reason = s := if_pos h

/-- One that no tick has reached is skipped. -/
theorem cutOff_of_pending {s : SegmentRun} (reason : String) (h : s.state = .pending) :
    s.cutOff reason =
      { s with state := .skipped, history := s.history ++ [(.skipped, s.ticks)] } := by
  unfold cutOff skipped
  rw [if_neg (by rw [h]; exact Bool.false_ne_true), if_pos h, if_pos h]

/-- One that is under way times out. -/
theorem cutOff_of_underWay {s : SegmentRun} (reason : String) (h : ¬ s.state.isTerminal)
    (hp : s.state ≠ .pending) :
    s.cutOff reason = { s with
      detail := some reason
      state := .timedOut
      history := s.history ++ [(.timedOut, s.ticks)] } := by
  unfold cutOff
  rw [if_neg h, if_neg hp]

/-- **Breaking off does what `BrokenOff` says** to a segment at any time of its run. -/
theorem Sound.brokenOff {s : SegmentRun} (h : s.Sound) (reason : String) :
    BrokenOff reason s (s.cutOff reason) := by
  -- ended, not reached yet, or under way
  by_cases ht : s.state.isTerminal
  · rw [cutOff_of_isTerminal reason ht]
    refine ⟨fun _ hn => absurd ht hn, fun hz => ?_, fun _ => rfl, rfl, rfl⟩
    refine (h.ticks_eq_zero_iff.mp hz).resolve_left fun hp => ?_
    rw [hp] at ht
    exact Bool.false_ne_true ht
  by_cases hp : s.state = .pending
  · rw [cutOff_of_pending reason hp]
    exact ⟨fun hz => absurd (h.ticks_eq_zero_iff.mpr (.inl hp)) hz, fun _ => rfl,
      fun hn => absurd hn ht, rfl, rfl⟩
  · rw [cutOff_of_underWay reason ht hp]
    refine ⟨fun _ _ => ⟨rfl, rfl⟩, fun hz => ?_, fun hn => absurd hn ht, rfl, rfl⟩
    rcases h.ticks_eq_zero_iff.mp hz with hs | hs
    · exact absurd hs hp
    · rw [hs] at ht
      exact absurd rfl ht

end SegmentRun

namespace PlaybackRun

variable {p : Playlist} {c : Config} {b : Beat} {r : PlaybackRun} {env env' : Environment}
  {reason : String} {lists : List ListRun}

/-- Breaking a run off does to every segment what it does to it alone. -/
theorem segments_cutOff :
    (r.cutOff reason).segments = r.segments.map (SegmentRun.cutOff reason) := by
  change (r.lists.map _).flatMap _ = (r.lists.flatMap _).map _
  rw [List.flatMap_map, List.map_flatMap]
  congr 1
  funext l
  exact ListRun.segments_cutOff

/-- A signal and a time that is up are found before any segment plays. -/
theorem Cause.at_once (h : Cause b r env reason lists env')
    (hs : Signalled b r ∨ ∃ timeout, Late b r timeout) :
      lists = r.lists ∧ env' = r.opened b env := by
  cases h with
  | signalled | late => exact ⟨rfl, rfl⟩
  | fatal hn hl =>
    rcases hs with hs | ⟨timeout, ht⟩
    · exact absurd hs hn
    · exact absurd ht (hl timeout)

/-- A tick that lets the run go on has found that there is time left. -/
theorem Sound.elapsed_lt (h : Sound p c r) (hr : r.result = none) (hu : Undisturbed b r env)
    {timeout : Float} (ht : r.timeout = some timeout) :
    (r.tick b env).subject.elapsed < timeout := by
  have he : (r.tick b env).subject.elapsed = (r.counted b.delta).elapsed := by
    rw [(tick_of_undisturbed hr hu).2, ← (played_midway b r env).elapsed]
    split <;> rfl
  rw [he]
  have hlate : ¬ timeout ≤ (r.counted b.delta).elapsed := fun hl => hu.not_late timeout ⟨ht, hl⟩
  -- both times are from zero on, and so one is less than the other if it is not at least that
  have htimeout : 0.0 ≤ timeout := Clock.le_of_lt (h.timeout timeout ht)
  exact Clock.lt_of_not_le (zero_le_counted h.elapsed b.delta) htimeout hlate

/-- **The run is broken off on the spot.** In a tick of an unfinished run,

* a cause ends the run at once and without success. Every segment is cut off as it was when the
  cause was found, and from then on handlers are called only to make them give up. A signal, and a
  time that is up, are found before any segment is ticked,
* if the run goes on, there was no cause, and there is time left.

Which of several causes counts is part of `Cause`. -/
theorem cause_ends_run (h : Reachable p c r) (hr : r.result = none) :
    (∀ b env reason lists env', Cause b r env reason lists env' →
      (∃ result, (r.tick b env).subject.result = some result ∧ result.success = false) ∧
      (r.tick b env).subject.segments.length = (lists.flatMap ListRun.segments).length ∧
      (∀ (i : Nat) (s : SegmentRun), (lists.flatMap ListRun.segments)[i]? = some s →
        ∃ s', (r.tick b env).subject.segments[i]? = some s' ∧ s.BrokenOff reason s') ∧
      env'.OnlyAborts (r.tick b env).env ∧
      (Signalled b r ∨ (∃ timeout, Late b r timeout) → lists = r.lists ∧ env' = r.opened b env)) ∧
    (∀ b env, (r.tick b env).subject.result = none →
      Undisturbed b r env ∧
        ∀ timeout, r.timeout = some timeout → (r.tick b env).subject.elapsed < timeout) := by
  have hs := h.sound
  constructor
  · intro b env reason lists env' hc
    obtain ⟨r', hm, ht, honly⟩ := tick_of_cause hr hc
    have hsegments : (r.tick b env).subject.segments =
        (lists.flatMap ListRun.segments).map (SegmentRun.cutOff reason) := by
      rw [ht, ← hm.lists]
      exact segments_cutOff
    have hsound : ∀ s ∈ lists.flatMap ListRun.segments, s.Sound :=
      List.forall_mem_flatMap.mpr fun l hl => ((hc.valid hs.valid).2 l hl).segments
    refine ⟨⟨_, by rw [ht]; rfl, rfl⟩, ?_, fun i s hi => ⟨s.cutOff reason, ?_, ?_⟩,
      honly, hc.at_once⟩
    · rw [hsegments, List.length_map]
    · rw [hsegments, List.getElem?_map, hi]
      rfl
    · exact (hsound s (List.mem_of_getElem? hi)).brokenOff reason
  · intro b env ht
    -- a cause would have ended the run
    have hu : Undisturbed b r env := by
      refine undisturbed_of_success hr fun result hn => ?_
      rw [ht] at hn
      cases hn
    exact ⟨hu, fun timeout htimeout => hs.elapsed_lt hr hu htimeout⟩

/-- A signal breaks off the segment that is under way in the fourth second of the tour, which had
time left by then. With stricter settings the tour is broken off in its second second, because its
first segment fails. -/
theorem tour_is_broken_off :
    (∃ s, ((tourAfter lenient 3).tick (second true) (.of .empty)).subject.segments[3]? = some s ∧
      s.state = .timedOut ∧ s.detail = some Abort.message) ∧
    (tourAfter lenient 3).elapsed < 10.0 ∧
    ∃ s, (tourAfter strict 2).segments[2]? = some s ∧ s.ticks = 1 ∧ s.state = .timedOut ∧
      s.detail = some "Segment `watch` in list `side` ended Failed" := by
  have hs : ¬ Signalled (second false) (tourAfter strict 1) := by
    rintro ⟨listener, hl, hh⟩
    cases hl
    exact absurd hh (by decide)
  have hl : ∀ timeout, ¬ Late (second false) (tourAfter strict 1) timeout := by
    rintro timeout ⟨ht, hle⟩
    cases ht
    exact absurd hle (by decide)
  -- the first list is at fault, and nobody is in front of it
  have hfatal : Cause (second false) (tourAfter strict 1) (.of .empty) _ _ _ :=
    @Cause.fatal _ _ _ [] _ _ _ _ _ _ hs hl rfl ⟨by decide, by rintro _ ⟨⟩⟩ rfl rfl rfl rfl rfl rfl
      (by decide)
  have hsignal : Cause (second true) (tourAfter lenient 3) (.of .empty) _ _ _ :=
    .signalled ⟨⟨0, false⟩, rfl, rfl⟩
  refine ⟨?_, ?_, ?_⟩
  · obtain ⟨-, -, hall, -, -⟩ :=
      (cause_ends_run (tourAfter_reachable lenient 3) rfl).1 _ _ _ _ _ hsignal
    obtain ⟨s', hs', hbroken⟩ := hall 3 _ rfl
    obtain ⟨hstate, hdetail⟩ := hbroken.underWay (by decide) (by decide)
    exact ⟨s', hs', hstate, hdetail⟩
  · obtain ⟨-, hleft⟩ :=
      (cause_ends_run (tourAfter_reachable lenient 2) rfl).2 (second false) (.of .empty) rfl
    exact hleft 10.0 rfl
  · obtain ⟨-, -, hall, -, -⟩ :=
      (cause_ends_run (tourAfter_reachable strict 1) rfl).1 _ _ _ _ _ hfatal
    obtain ⟨s', hs', hbroken⟩ := hall 2 _ rfl
    obtain ⟨hstate, hdetail⟩ := hbroken.underWay (by decide) (by decide)
    exact ⟨s', hs', hbroken.ticks, hstate, hdetail⟩

end PlaybackRun

end Playtest
