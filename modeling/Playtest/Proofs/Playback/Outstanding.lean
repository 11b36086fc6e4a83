import Playtest.Proofs.Playback.Results
import Playtest.Proofs.Segment.Awaiting

/-!
# No request outlives its purpose

All segments of a run share the vision requests of one environment. The main result,
`PlaybackRun.outstanding_is_awaited`, is that at the end of every tick whatever is outstanding is
awaited by some segment of the run, and that nothing is outstanding once the run has ended, in
whatever way.

A run keeps to one environment from call to call (`PlaybackRun.Hosted`), while between two calls the
host may do with it what it likes, as long as it neither sends nor abandons requests. Requests that
others have left in the environment are forgotten by the first tick.

That no request becomes stray is carried from segments to lists, from lists to rounds, and from
rounds to ticks, each time by adding what all the others await.
-/

namespace Playtest

open Playtest.Scene Vision Vision.Coordinator

namespace SegmentRun

variable {key : Key} {ss ts : List SegmentRun} {s : SegmentRun}

/-- **Some segment** awaits the key. -/
def SomeAwaits (ss : List SegmentRun) (key : Key) : Prop := ∃ s ∈ ss, s.Awaits key

/-- Who awaits a key is among the first or among the last. -/
theorem someAwaits_append : SomeAwaits (ss ++ ts) key ↔ SomeAwaits ss key ∨ SomeAwaits ts key := by
  simp only [SomeAwaits, List.mem_append, or_and_right, exists_or]

/-- Or it is the first one. -/
theorem someAwaits_cons : SomeAwaits (s :: ss) key ↔ s.Awaits key ∨ SomeAwaits ss key := by
  simp only [SomeAwaits, List.mem_cons, or_and_right, exists_or, exists_eq_left]

/-- Skipping segments does not change who awaits what. -/
theorem someAwaits_map_skipped : SomeAwaits (ss.map skipped) key ↔ SomeAwaits ss key := by
  constructor
  · rintro ⟨_, hmem, hawaits⟩
    obtain ⟨s, hs, rfl⟩ := List.mem_map.mp hmem
    exact ⟨s, hs, awaits_skipped_iff.mp hawaits⟩
  · rintro ⟨s, hs, hawaits⟩
    exact ⟨s.skipped, List.mem_map_of_mem hs, awaits_skipped_iff.mpr hawaits⟩

end SegmentRun

open SegmentRun

variable {m : Moment} {env env' : Environment} {reason : String}

/-- What leaves no strays for a segment leaves none for the list of it. -/
theorem noStrays_single {s s' : SegmentRun} {c c' : Coordinator}
    (h : NoStrays s.Awaits c s'.Awaits c') : NoStrays (SomeAwaits [s]) c (SomeAwaits [s']) c' := by
  intro key hout hnone
  have hone : ∀ t : SegmentRun, SomeAwaits [t] key ↔ t.Awaits key := by simp [SomeAwaits]
  rw [hone] at hnone ⊢
  exact h key hout hnone

/-- What is done with some segments among others leaves no strays if it leaves none for them. -/
theorem noStrays_among {ss ss' : List SegmentRun} {c c' : Coordinator}
    (front back : List SegmentRun) (h : NoStrays (SomeAwaits ss) c (SomeAwaits ss') c') :
    NoStrays (SomeAwaits (front ++ ss ++ back)) c (SomeAwaits (front ++ ss' ++ back)) c' := by
  intro key hout hnone
  simp only [someAwaits_append, not_or] at hnone ⊢
  obtain ⟨⟨hfront, hss'⟩, hback⟩ := hnone
  obtain ⟨hout, hss⟩ := h key hout hss'
  exact ⟨hout, ⟨hfront, hss⟩, hback⟩

namespace ListRun

variable {l l' : ListRun} {e : ListEvent}

/-- What leaves no strays for each segment leaves none for all of them. -/
theorem noStrays_eachSegment {f : SegmentRun → Environment → Turn SegmentRun}
    (hf : ∀ s env, NoStrays s.Awaits env.vision (f s env).subject.Awaits (f s env).env.vision)
    (ss : List SegmentRun) (env : Environment) :
    NoStrays (SomeAwaits ss) env.vision (SomeAwaits (eachSegment f ss env).subject)
      (eachSegment f ss env).env.vision := by
  induction ss generalizing env with
  | nil => exact .refl _ _
  | cons s rest ih =>
    -- the first one among the others as they were, and then the others behind it
    have hfirst := noStrays_among [] rest (noStrays_single (hf s env))
    have hothers := noStrays_among [(f s env).subject] [] (ih (f s env).env)
    rw [List.append_nil, List.append_nil] at hothers
    exact hfirst.trans hothers

/-- A tick of a list leaves no strays. -/
theorem Plays.noStrays (h : Plays m l env l' e env') :
    NoStrays (SomeAwaits l.segments) env.vision (SomeAwaits l'.segments) env'.vision := by
  cases ha : l.ahead with
  | nil =>
    obtain ⟨rfl, -, rfl⟩ := h.of_empty ha
    exact .refl _ _
  | cons s rest =>
    obtain ⟨rfl, hsegments⟩ := h.segments_eq ha
    have hbefore : l.segments = l.played ++ [s] ++ rest := by
      rw [segments, ha, List.append_assoc, List.singleton_append]
    -- the current segment plays among the ones before and behind it
    have htick := noStrays_among l.played rest (noStrays_single (noStrays_tick s m env))
    rw [hbefore]
    refine htick.trans (.of_imp rfl fun key hkey => ?_)
    -- skipping the rest is all in which the two ways differ
    rcases hsegments with heq | heq <;> rw [heq] <;>
      simp only [someAwaits_append, someAwaits_cons, someAwaits_map_skipped, or_assoc] at hkey ⊢
    all_goals simpa [SomeAwaits] using hkey

theorem noStrays_abort (reason : String) (l : ListRun) (env : Environment) :
    NoStrays (SomeAwaits l.segments) env.vision (SomeAwaits (l.abort reason env).subject.segments)
      (l.abort reason env).env.vision := by
  have each := noStrays_eachSegment (SegmentRun.noStrays_abort reason)
  have hplayed := noStrays_among [] l.ahead (each l.played env)
  have hahead := noStrays_among (eachSegment (SegmentRun.abort reason) l.played env).subject []
    (each l.ahead (eachSegment (SegmentRun.abort reason) l.played env).env)
  rw [List.append_nil, List.append_nil] at hahead
  exact hplayed.trans hahead

end ListRun

namespace PlaybackRun

variable {p : Playlist} {c : Config} {b : Beat} {r : PlaybackRun} {ls : List ListRun}
  {t : ListTicks}

/-- **A round leaves no strays.** -/
theorem Round.noStrays (h : Round m ls env t env') :
    NoStrays (SomeAwaits (ls.flatMap ListRun.segments)) env.vision
      (SomeAwaits (t.lists.flatMap ListRun.segments)) env'.vision := by
  -- a list that plays does so in front of the lists behind it
  have played : ∀ {l : ListRun} {rest : List ListRun} {env : Environment}, ¬ l.isFinished →
      NoStrays (SomeAwaits ((l :: rest).flatMap ListRun.segments)) env.vision
        (SomeAwaits (((l.tick m env).subject.1 :: rest).flatMap ListRun.segments))
          (l.tick m env).env.vision := by
    intro l rest env hf
    exact noStrays_among [] (rest.flatMap ListRun.segments) (ListRun.tick_plays hf).noStrays
  -- and the lists behind it play on their own
  have behind : ∀ {rest : List ListRun} {u : ListTicks} {env env' : Environment} (l : ListRun),
      NoStrays (SomeAwaits (rest.flatMap ListRun.segments)) env.vision
        (SomeAwaits (u.lists.flatMap ListRun.segments)) env'.vision →
      NoStrays (SomeAwaits ((l :: rest).flatMap ListRun.segments)) env.vision
        (SomeAwaits ((l :: u.lists).flatMap ListRun.segments)) env'.vision := by
    intro rest u env env' l hrest
    have hbehind := noStrays_among l.segments [] hrest
    rw [List.append_nil, List.append_nil] at hbehind
    exact hbehind
  induction h with
  | nil => exact .refl _ _
  | finished hf _ ih => exact behind _ ih
  | fatal hf => exact played hf
  | parallel hf _ _ _ ih => exact (played hf).trans (behind _ ih)
  | last hf => exact played hf

theorem noStrays_abortLists (reason : String) (ls : List ListRun) (env : Environment) :
    NoStrays (SomeAwaits (ls.flatMap ListRun.segments)) env.vision
      (SomeAwaits ((abortLists reason ls env).subject.flatMap ListRun.segments))
        (abortLists reason ls env).env.vision := by
  induction ls generalizing env with
  | nil => exact .refl _ _
  | cons l rest ih =>
    -- the first list among the others as they were, and then the others behind it
    have hfirst := noStrays_among [] (rest.flatMap ListRun.segments) (l.noStrays_abort reason env)
    have hothers := noStrays_among (l.abort reason env).subject.segments []
        (ih (l.abort reason env).env)
    rw [List.append_nil, List.append_nil] at hothers
    exact hfirst.trans hothers

/-- Breaking a run off leaves none, either. -/
theorem noStrays_breakOff (reason : String) (r : PlaybackRun) (env : Environment) :
    NoStrays (SomeAwaits r.segments) env.vision
      (SomeAwaits (breakOff reason r env).subject.segments)
      (breakOff reason r env).env.vision :=
  noStrays_abortLists reason r.lists env

/-- **A tick of a run leaves no strays**, apart from what its first one forgets. -/
theorem noStrays_tick (b : Beat) (env : Environment) (h : r.result = none) :
    NoStrays (SomeAwaits r.segments) (r.prepared env).vision
      (SomeAwaits (r.tick b env).subject.segments)
      (r.tick b env).env.vision := by
  -- the run is broken off before or behind a round, or it is not
  have ht := tick_eq b env h
  cases ho : (r.begun b).obstacle? with
  | some reason =>
    rw [ho] at ht
    rw [ht.1, ht.2]
    exact noStrays_breakOff reason (r.begun b) (r.opened b env)
  | none =>
    have hround : NoStrays (SomeAwaits r.segments) (r.prepared env).vision
        (SomeAwaits (r.played b env).segments) (r.round b env).env.vision :=
      (tickLists_round (r.moment b env) r.lists (r.opened b env)).noStrays
    cases hf : (r.round b env).subject.fatal with
    | some reason =>
      have ht := tick_of_no_obstacle env h ho
      rw [hf] at ht
      rw [ht.1, ht.2]
      exact hround.trans (noStrays_breakOff reason (r.played b env) (r.round b env).env)
    | none =>
      obtain ⟨henv, hsubject⟩ := tick_of_not_fatal h ho hf
      rw [henv, hsubject]
      split <;> exact hround

/-- An attempt to end a run leaves no strays. -/
theorem noStrays_abort (reason : String) (env : Environment) (h : r.result = none) :
    NoStrays (SomeAwaits r.segments) env.vision (SomeAwaits (r.abort reason env).subject.segments)
      (r.abort reason env).env.vision := by
  rw [abort, if_neg (not_isFinished h)]
  exact noStrays_breakOff reason r env

/-! ### Runs with their environment -/

/-- The runs of the playlist **with their environment**, which the run had from the beginning and
hands on from call to call. In between, the host may do anything that leaves the outstanding
requests as they are: replies arrive, validations finish, handlers come and go. -/
inductive Hosted (p : Playlist) (c : Config) (env₀ : Environment) : PlaybackRun → Environment → Prop
  | fresh {r : PlaybackRun} (h : Fresh p c r) : Hosted p c env₀ r env₀
  | tick {r : PlaybackRun} {env : Environment} (h : Hosted p c env₀ r env) (b : Beat) :
      Hosted p c env₀ (r.tick b env).subject (r.tick b env).env
  | abort {r : PlaybackRun} {env : Environment} (h : Hosted p c env₀ r env) (reason : String) :
      Hosted p c env₀ (r.abort reason env).subject (r.abort reason env).env
  | meanwhile {r : PlaybackRun} {env env' : Environment} (h : Hosted p c env₀ r env)
      (ho : env'.vision.outstanding = env.vision.outstanding) : Hosted p c env₀ r env'

variable {env₀ : Environment}

/-- A run with its environment is a run of the playlist. -/
theorem Hosted.reachable (h : Hosted p c env₀ r env) : Reachable p c r := by
  induction h with
  | fresh h => exact .fresh h
  | tick _ b ih => exact ih.tick b _
  | abort _ reason ih => exact ih.abort reason _
  | meanwhile _ _ ih => exact ih

/-- Ending a run does not count as a tick. -/
theorem ticks_abort (reason : String) (env : Environment) :
    (r.abort reason env).subject.ticks = r.ticks := by
  cases hr : r.result with
  | some result => rw [abort_of_ended hr]; rfl
  | none => rw [abort_subject hr]; rfl

/-- **The invariant**: whatever is outstanding is awaited. -/
theorem Hosted.awaited (h : Hosted p c env₀ r env)
    (h₀ : env₀.vision.outstanding = [] ∨ 0 < r.ticks) :
    ∀ key, env.vision.Expects key → SomeAwaits r.segments key := by
  -- induction over what is done to the run and to its environment
  induction h with
  | fresh h =>
    rcases h₀ with h₀ | hpos
    · rintro key ⟨index, hmem⟩
      rw [h₀] at hmem
      exact absurd hmem List.not_mem_nil
    · rw [h.ticks] at hpos
      exact absurd hpos (Nat.lt_irrefl 0)
  | @tick r env h b ih =>
    cases hr : r.result with
    | some result =>
      rw [tick_of_ended hr] at h₀ ⊢
      exact ih h₀
    | none =>
      -- the first tick forgets everything, and any other one has got the hypothesis
      refine (noStrays_tick b env hr).all_awaited fun key hout => ?_
      unfold prepared at hout
      split at hout
      · exact absurd hout not_expects_reset
      · next hn => exact ih (.inr (Nat.pos_of_ne_zero hn)) key hout
  | @abort r env h reason ih =>
    rw [ticks_abort] at h₀
    cases hr : r.result with
    | some result =>
      rw [abort_of_ended hr]
      exact ih h₀
    | none => exact (noStrays_abort reason env hr).all_awaited (ih h₀)
  -- the host leaves the outstanding requests alone
  | meanwhile h ho ih =>
    rintro key ⟨index, hmem⟩
    exact ih h₀ key ⟨index, ho ▸ hmem⟩

/-- **Whatever is outstanding is awaited.** Let a run begin without any outstanding request, or have
played its first tick. Then each outstanding request is the one for a vision criteria of a phase for
which some segment of the run waits, under the key of that criteria. When the run has a result,
nothing is outstanding. -/
theorem outstanding_is_awaited (h : Hosted p c env₀ r env)
    (h₀ : env₀.vision.outstanding = [] ∨ 0 < r.ticks) :
    (∀ e ∈ env.vision.outstanding, ∃ s ∈ r.segments, s.Awaits e.1) ∧
      ∀ result, r.result = some result → env.vision.outstanding = [] := by
  have hawaited := h.awaited h₀
  refine ⟨fun e he => hawaited e.1 ⟨e.2, he⟩, fun result hr => ?_⟩
  refine List.eq_nil_iff_forall_not_mem.mpr fun e he => ?_
  -- whoever would await it has ended with the run
  obtain ⟨s, hs, hkey⟩ := hawaited e.1 ⟨e.2, he⟩
  exact not_awaits_of_isTerminal ((h.reachable.sound.allEnded hr).2 s hs) hkey

/-- A playlist that looks out for a text before it does anything. -/
def lookout : Playlist where
  name := "lookout"
  lists :=
    [⟨"main", "", 1, [{ Segment.ofName "look" with
      entryCriteria := [.of (.vision .text ⟨some "Play", none, none, 0.5⟩)] }]⟩]

/-- A second of one black pixel. -/
def dark : Beat := ⟨1.0, { Frame.empty with screenshot := some ⟨1, 1, [0, 0, 0]⟩ }, ⟨0, 1, 1⟩⟩

/-- An environment in which others have left a request. -/
def leftBehind : Environment :=
  { Environment.of .empty with
    vision := { Coordinator.of (some silent) with
      nextIndex := 5
      outstanding := [("9/end.0", 4)] } }

/-- The first second of the lookout. -/
def lookedOut : Turn PlaybackRun :=
  (PlaybackRun.of lookout .default "a-lookout" 0).tick dark leftBehind

/-- The lookout waits for its text, and for nothing else, until it is broken off. -/
theorem lookout_awaits_text :
    lookedOut.env.vision.outstanding = [("1/entry.0", 5)] ∧
      (∃ s ∈ lookedOut.subject.segments, s.Awaits "1/entry.0") ∧
        (lookedOut.subject.abort "stop" lookedOut.env).env.vision.outstanding = [] := by
  have hosted : Hosted lookout .default leftBehind lookedOut.subject lookedOut.env :=
    .tick (.fresh (.of "a-lookout" 0)) dark
  have hpos : 0 < lookedOut.subject.ticks := by decide +kernel
  have hout : lookedOut.env.vision.outstanding = [("1/entry.0", 5)] := by decide +kernel
  have hmem : ("1/entry.0", 5) ∈ lookedOut.env.vision.outstanding := by
    rw [hout]
    exact List.mem_singleton.mpr rfl
  have hresult : lookedOut.subject.result = none := by rfl
  -- the abort gives the run a result, and with it nothing is outstanding
  obtain ⟨result, hr, -⟩ := exists_result_abort "stop" lookedOut.env hresult
  refine ⟨hout, (outstanding_is_awaited hosted (.inr hpos)).1 _ hmem, ?_⟩
  refine (outstanding_is_awaited (hosted.abort "stop") (.inr ?_)).2 result hr
  rw [ticks_abort]
  exact hpos

end PlaybackRun

end Playtest
