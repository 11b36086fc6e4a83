import Mathlib.Data.List.Forall2
import Playtest.Proofs.Criteria.PathCounts
import Playtest.Proofs.Playback.BreakingOff

/-!
# The key frame

A run keeps the snapshot of the last tick in which it has completed a segment, its **key frame**,
and path criteria may ask what has come and gone since then. What the key frame is, is told by the
chronicle of the run: `PlaybackRun.Chronicled` puts down for every tick its snapshot and the
segments before and after it, and `lastCompletion?` is the snapshot of the last entry in which some
segment was completed.

* `PlaybackRun.key_frame_is_last_completion`: all segments that play in a tick look at one and the
  same key frame, which is the one that the chronicle tells, and path criteria that they meet have
  as many arrivals and departures as they ask for, counted from that key frame,
* `PlaybackRun.latched_criteria_counts_nothing`: transient criteria that were met before are an
  exception.

Completions are found by comparing the segments before and after a tick, and the run finds them by
the events of its lists. That the two agree (`ListRun.Plays.completes`,
`PlaybackRun.Round.completes`) takes the order of the segments: the one whose turn it is had not
completed before.
-/

namespace Playtest

open Playtest.Scene

variable {m : Moment} {env env' : Environment} {reason : String}

/-! ### Chronicles -/

/-- Some segment **was completed** between two times at which the same segments were looked at. -/
def completes (before after : List SegmentRun) : Bool :=
  (before.zip after).any fun s => s.1.state != .completed && s.2.state == .completed

/-- What is put down about a tick of a run. -/
structure TickRecord where
  snapshot : Snapshot
  before : List SegmentRun
  after : List SegmentRun

/-- Whether a segment was completed in the tick. -/
def TickRecord.isCompleting (e : TickRecord) : Bool := completes e.before e.after

/-- The snapshot of the **last tick in which a segment was completed**, of ticks with the last one
first. -/
def lastCompletion? (past : List TickRecord) : Option Snapshot :=
  (past.find? TickRecord.isCompleting).map TickRecord.snapshot

section Completes

variable {ss ss' ts ts' : List SegmentRun} {s s' : SegmentRun}

/-- Completions are looked for part by part. -/
theorem completes_append (h : ss.length = ss'.length) :
    completes (ss ++ ts) (ss' ++ ts') = (completes ss ss' || completes ts ts') := by
  rw [completes, List.zip_append h, List.any_append]
  rfl

/-- And segment by segment. -/
theorem completes_cons :
    completes (s :: ss) (s' :: ss') =
      (s.state != .completed && s'.state == .completed || completes ss ss') := rfl

/-- Nothing is completed by what does not complete any segment. -/
theorem completes_map {f : SegmentRun → SegmentRun}
    (hf : ∀ s, (f s).state = .completed → s.state = .completed) (ss : List SegmentRun) :
    completes ss (ss.map f) = false := by
  induction ss with
  | nil => rfl
  | cons s rest ih =>
    rw [List.map_cons, completes_cons, ih, Bool.or_false, Bool.and_eq_false_iff]
    -- it was completed before already, or it is not completed now
    by_cases hs : (f s).state = .completed
    · exact .inl (by rw [hf s hs]; rfl)
    · exact .inr (beq_eq_false_iff_ne.mpr hs)

/-- Nothing is completed where nothing happens. -/
theorem completes_self (ss : List SegmentRun) : completes ss ss = false := by
  have hmap := completes_map (f := id) (fun _ h => h) ss
  rwa [List.map_id] at hmap

end Completes

/-! ### What the segments of a run see -/

namespace SegmentRun

/-- What may come of a segment in a tick of a run, if it **sees a moment** and no other: it is left
alone, skipped, or ticked at that moment, and it may be broken off after that. -/
inductive Sees (m : Moment) (s : SegmentRun) : SegmentRun → Prop
  | idle : Sees m s s
  | skipped : Sees m s s.skipped
  | ticked (env : Environment) : Sees m s (s.tick m env).subject
  | cutOff {s' : SegmentRun} (h : Sees m s s') (reason : String) : Sees m s (s'.cutOff reason)

/-- Segments that are left alone see every moment. -/
theorem forall₂_sees_idle (ss : List SegmentRun) : List.Forall₂ (Sees m) ss ss :=
  List.forall₂_same.mpr fun _ _ => .idle

/-- So do segments that are skipped. -/
theorem forall₂_sees_skipped (ss : List SegmentRun) : List.Forall₂ (Sees m) ss (ss.map skipped) :=
  List.forall₂_map_right_iff.mpr (List.forall₂_same.mpr fun _ _ => .skipped)

/-- Breaking segments off lets them see nothing else. -/
theorem forall₂_sees_cutOff {ss ss' : List SegmentRun} (h : List.Forall₂ (Sees m) ss ss')
    (reason : String) : List.Forall₂ (Sees m) ss (ss'.map (SegmentRun.cutOff reason)) :=
  List.forall₂_map_right_iff.mpr (h.imp fun _ _ hs => hs.cutOff reason)

/-- Skipping a segment does not complete it. -/
theorem state_skipped_eq_completed {s : SegmentRun} (h : s.skipped.state = .completed) :
    s.state = .completed := by
  unfold SegmentRun.skipped at h
  split at h
  · cases h
  · exact h

end SegmentRun

namespace ListRun

variable {l l' : ListRun} {e : ListEvent}

/-- A tick of a list completes a segment just if it completes the current one. -/
theorem Plays.completes_eq (h : Plays m l env l' e env') {s : SegmentRun} {rest : List SegmentRun}
    (ha : l.ahead = s :: rest) :
    completes l.segments l'.segments =
      (s.state != .completed && (s.tick m env).subject.state == .completed) := by
  have hbefore : l.segments = l.played ++ s :: rest := by rw [segments, ha]
  have hskipped : completes rest (rest.map SegmentRun.skipped) = false :=
    completes_map (fun _ => SegmentRun.state_skipped_eq_completed) rest
  rw [hbefore]
  -- what comes after the current segment is left alone or skipped
  rcases (h.segments_eq ha).2 with hafter | hafter
  · rw [hafter, completes_append rfl, completes_self, completes_cons, completes_self, Bool.or_false,
      Bool.false_or]
  · rw [hafter, completes_append rfl, completes_self, completes_cons, hskipped, Bool.or_false,
      Bool.false_or]

/-- **The event of a list tells whether a segment was completed.** -/
theorem Plays.completes (h : Plays m l env l' e env') (hf : ¬ l.isFinished) (hl : l.Sound) :
    completes l.segments l'.segments = (e == .keyFrame) := by
  have hnot : ∀ {s : SegmentRun} {rest : List SegmentRun}, l.ahead = s :: rest →
      (s.tick m env).subject.state ≠ .completed →
        Playtest.completes l.segments l'.segments = false := by
    intro s rest ha hs
    -- the current segment was not completed, and it is the only one that played
    rw [h.completes_eq ha, beq_eq_false_iff_ne.mpr hs, Bool.and_false]
  cases ha : l.ahead with
  | nil =>
    obtain ⟨rfl, rfl, -⟩ := h.of_empty ha
    exact completes_self _
  | cons s rest =>
    -- the segment whose turn it is has not ended, and so its tick alone decides
    have hcurrent : s.state ≠ .completed := by
      have hs : ¬ s.state.isTerminal := hl.current hf s (by rw [ha]; rfl)
      intro hs'
      rw [hs'] at hs
      exact hs rfl
    cases h with
    | empty h => rw [h] at ha; cases ha
    | ongoing h hs => exact hnot h fun hc => hs (by rw [hc]; rfl)
    | fatal h ht hs => exact hnot h hs
    | cutShort h ht hs => exact hnot h hs
    | passedOver h ht hs =>
      refine (hnot h hs).trans ?_
      split <;> rfl
    | completed h hs =>
      obtain ⟨rfl, rfl⟩ := List.cons.inj (h.symm.trans ha)
      rw [(Plays.completed h hs).completes_eq h, hs, bne_iff_ne.mpr hcurrent]
      rfl

/-- **The segments of a list see the moment of its tick.** -/
theorem Plays.sees (h : Plays m l env l' e env') :
    List.Forall₂ (SegmentRun.Sees m) l.segments l'.segments := by
  cases ha : l.ahead with
  | nil =>
    obtain ⟨rfl, -, -⟩ := h.of_empty ha
    exact SegmentRun.forall₂_sees_idle _
  | cons s rest =>
    have hbefore : l.segments = l.played ++ s :: rest := by rw [segments, ha]
    have hplayed := SegmentRun.forall₂_sees_idle (m := m) l.played
    rw [hbefore]
    -- the ones behind the current segment are left alone, or skipped
    rcases (h.segments_eq ha).2 with hafter | hafter
    · rw [hafter]
      exact List.rel_append hplayed (.cons (.ticked env) (SegmentRun.forall₂_sees_idle rest))
    · rw [hafter]
      exact List.rel_append hplayed (.cons (.ticked env) (SegmentRun.forall₂_sees_skipped rest))

theorem Plays.length_segments (h : Plays m l env l' e env') :
    l.segments.length = l'.segments.length := h.sees.length_eq

end ListRun

namespace PlaybackRun

variable {p : Playlist} {c : Config} {b : Beat} {r : PlaybackRun} {ls : List ListRun}
  {t : ListTicks}

/-- Completions are looked for list by list. -/
theorem completes_flatMap_cons {l l' : ListRun} {rest rest' : List ListRun}
    (h : l.segments.length = l'.segments.length) :
    completes ((l :: rest).flatMap ListRun.segments) ((l' :: rest').flatMap ListRun.segments) =
      (completes l.segments l'.segments ||
        completes (rest.flatMap ListRun.segments) (rest'.flatMap ListRun.segments)) := by
  rw [List.flatMap_cons, List.flatMap_cons, completes_append h]

/-- **A round tells whether a segment was completed**, unless it is fatal. -/
theorem Round.completes (h : Round m ls env t env') (ht : t.fatal = none) (hs : ∀ l ∈ ls, l.Sound) :
    completes (ls.flatMap ListRun.segments) (t.lists.flatMap ListRun.segments) = t.isKeyFrame := by
  induction h with
  | nil => rfl
  | finished hf h ih =>
    rw [List.forall_mem_cons] at hs
    refine (completes_flatMap_cons rfl).trans ?_
    -- a list that has finished is not played, so nothing in it is completed
    rw [completes_self, ih ht hs.2]
    rfl
  | fatal => cases ht
  | @parallel l _ env _ _ hf he hp h ih =>
    rw [List.forall_mem_cons] at hs
    have hplays : l.Plays m env _ _ _ := ListRun.tick_plays hf
    refine (completes_flatMap_cons hplays.length_segments).trans ?_
    rw [hplays.completes hf hs.1, ih ht hs.2]
    rfl
  | @last l _ env hf he hp =>
    rw [List.forall_mem_cons] at hs
    have hplays : l.Plays m env _ _ _ := ListRun.tick_plays hf
    refine (completes_flatMap_cons hplays.length_segments).trans ?_
    -- the lists behind it have to wait
    rw [hplays.completes hf hs.1, completes_self, Bool.or_false]

/-- **The segments of a round see its moment**, in whatever list they are. -/
theorem Round.sees (h : Round m ls env t env') :
    List.Forall₂ (SegmentRun.Sees m) (ls.flatMap ListRun.segments)
      (t.lists.flatMap ListRun.segments) := by
  induction h with
  | nil => exact .nil
  | finished _ _ ih => exact List.rel_append (SegmentRun.forall₂_sees_idle _) ih
  | fatal hf => exact List.rel_append (ListRun.tick_plays hf).sees (SegmentRun.forall₂_sees_idle _)
  | parallel hf _ _ _ ih => exact List.rel_append (ListRun.tick_plays hf).sees ih
  | last hf => exact List.rel_append (ListRun.tick_plays hf).sees (SegmentRun.forall₂_sees_idle _)

/-- **The segments of a tick see its moment**, whether the tick is broken off or not. -/
theorem tick_sees (h : r.result = none) (b : Beat) (env : Environment) :
    List.Forall₂ (SegmentRun.Sees (r.moment b env)) r.segments (r.tick b env).subject.segments := by
  have hround : List.Forall₂ (SegmentRun.Sees (r.moment b env)) r.segments
      (r.played b env).segments :=
    (tickLists_round (r.moment b env) r.lists (r.opened b env)).sees
  cases ho : (r.begun b).obstacle? with
  | some reason =>
    -- nothing has played by then, and all segments are broken off as they were
    rw [(tick_of_obstacle h ho).1]
    change List.Forall₂ _ _ ((r.begun b).cutOff reason).segments
    rw [segments_cutOff]
    exact SegmentRun.forall₂_sees_cutOff (SegmentRun.forall₂_sees_idle r.segments) reason
  | none =>
    cases hf : (r.round b env).subject.fatal with
    | some reason =>
      -- some segments have played, and all of them are broken off then
      rw [(tick_of_fatal h ho hf).1]
      change List.Forall₂ _ _ ((r.played b env).cutOff reason).segments
      rw [segments_cutOff]
      exact SegmentRun.forall₂_sees_cutOff hround reason
    | none =>
      rw [(tick_of_not_fatal h ho hf).2]
      split <;> exact hround

/-! ### The key frame of a run -/

/-- What is put down about a tick. -/
def record (b : Beat) (env : Environment) (r : PlaybackRun) : TickRecord where
  snapshot := (r.moment b env).snapshot
  before := r.segments
  after := (r.tick b env).subject.segments

/-- The runs of the playlist **with their chronicle**, the last tick first. Every call comes with an
environment of its own, and a run that has ended takes no ticks. -/
inductive Chronicled (p : Playlist) (c : Config) : PlaybackRun → List TickRecord → Prop
  | fresh {r : PlaybackRun} (h : Fresh p c r) : Chronicled p c r []
  | tick {r : PlaybackRun} {past : List TickRecord} (h : Chronicled p c r past)
      (hn : r.result = none) (b : Beat) (env : Environment) :
      Chronicled p c (r.tick b env).subject (r.record b env :: past)
  | abort {r : PlaybackRun} {past : List TickRecord} (h : Chronicled p c r past) (reason : String)
      (env : Environment) : Chronicled p c (r.abort reason env).subject past

variable {past : List TickRecord}

/-- A run with its chronicle is a run of the playlist. -/
theorem Chronicled.reachable (h : Chronicled p c r past) : Reachable p c r := by
  induction h with
  | fresh h => exact .fresh h
  | tick _ _ b env ih => exact ih.tick b env
  | abort _ reason env ih => exact ih.abort reason env

/-- A tick that does not end the run has played a round to its end. -/
theorem tick_of_goingOn (h : r.result = none) (hn : (r.tick b env).subject.result = none) :
    (r.tick b env).subject = r.played b env ∧ (r.round b env).subject.fatal = none := by
  rcases undisturbed_or_cause b r env with hu | ⟨reason, lists, env', hc⟩
  · refine ⟨?_, hu.not_fatal⟩
    have ht := (tick_of_undisturbed h hu).2
    rw [ht] at hn ⊢
    split at hn
    · cases hn
    · next hall => exact if_neg hall
  · -- a tick that breaks the run off gives it a result
    obtain ⟨r', -, ht, -⟩ := tick_of_cause h hc
    rw [ht] at hn
    cases hn

/-- A run takes its snapshot for the new key frame just if a segment was completed. -/
theorem keyFrame_tick (h : Reachable p c r) (hr : r.result = none)
    (hn : (r.tick b env).subject.result = none) :
    (r.tick b env).subject.keyFrame =
      if (r.record b env).isCompleting then some (r.record b env).snapshot else r.keyFrame := by
  obtain ⟨ht, hf⟩ := tick_of_goingOn hr hn
  have hcompletes : (r.record b env).isCompleting = (r.round b env).subject.isKeyFrame := by
    unfold TickRecord.isCompleting record
    rw [ht]
    exact (tickLists_round (r.moment b env) r.lists (r.opened b env)).completes hf h.sound.lists
  rw [hcompletes, ht]
  -- the run also looks whether the round was fatal, and that would have ended it
  change (if ((r.round b env).subject.isKeyFrame && (r.round b env).subject.fatal.isNone) = true
    then _ else _) = _
  rw [hf, Option.isNone_none, Bool.and_true]
  rfl

/-- **The key frame is the one that the chronicle tells**, as long as the run goes on. -/
theorem Chronicled.keyFrame_eq (h : Chronicled p c r past) (hn : r.result = none) :
    r.keyFrame = lastCompletion? past := by
  -- induction over the chronicle
  induction h with
  | fresh h => exact h.keyFrame
  | @tick r past h hr b env ih =>
    rw [keyFrame_tick h.reachable hr hn, ih hr]
    -- the new entry comes first, and counts if it is completing
    unfold lastCompletion?
    rw [List.find?_cons]
    cases (r.record b env).isCompleting <;> rfl
  | @abort r past h reason env ih =>
    cases hr : r.result with
    | some result =>
      rw [abort_of_ended hr] at hn
      exact absurd (hr.symm.trans hn) (by simp)
    | none =>
      obtain ⟨result, hresult, -⟩ := exists_result_abort reason env hr
      exact absurd (hresult.symm.trans hn) (by simp)

/-- Every snapshot of a chronicle has come out of a resolver, and so its ids are distinct. -/
theorem Chronicled.ordered (h : Chronicled p c r past) : ∀ e ∈ past, e.snapshot.Ordered := by
  induction h with
  | fresh => exact fun e he => absurd he List.not_mem_nil
  | tick _ _ b env ih => exact List.forall_mem_cons.mpr ⟨Resolver.resolve_ordered _ b.frame, ih⟩
  | abort _ _ _ ih => exact ih

/-- **The key frame of a tick.** In every tick of a run that has not ended, no segment sees another
moment than the one of the tick, and the key frame of that moment is the snapshot of the last tick
before in which a segment was completed, if there is one. A path criteria that a segment meets at
that moment has the arrivals and departures that it asks for, counted from that key frame, unless it
is transient and was met before. -/
theorem key_frame_is_last_completion (h : Chronicled p c r past) (hn : r.result = none) (b : Beat)
    (env : Environment) :
    List.Forall₂ (SegmentRun.Sees (r.moment b env)) r.segments (r.tick b env).subject.segments ∧
      ∀ (s : SegmentRun) (env' : Environment),
        (s.view (r.moment b env) env').keyFrame = lastCompletion? past ∧
          ∀ (key : Key) (v : Version) (isTransient isPartial : Bool) (test : PathTest)
            (notes : Notes), (Criteria.evaluateKeyed (s.view (r.moment b env) env') key
              (.single v isTransient (.path isPartial test)) notes).1 = .ok .met →
            ¬ (isTransient ∧ key ∈ s.latched) →
              test.Enough isPartial (lastCompletion? past) (r.moment b env).snapshot := by
  have hkey : r.keyFrame = lastCompletion? past := h.keyFrame_eq hn
  refine ⟨tick_sees hn b env,
    fun s env' => ⟨hkey, fun key v isTransient isPartial test notes hmet hl => ?_⟩⟩
  -- both snapshots have come out of a resolver, and so no id is counted twice
  have hnow : (r.moment b env).snapshot.Ordered := Resolver.resolve_ordered _ b.frame
  have hprior : ∀ k ∈ r.keyFrame, k.Ordered := by
    intro k hk
    rw [hkey] at hk
    obtain ⟨e, he, rfl⟩ := Option.map_eq_some_iff.mp hk
    exact h.ordered e (List.mem_of_find?_eq_some he)
  rw [← hkey]
  exact Criteria.enough_of_met hmet hl hnow hprior

/-! ### A watch

A run that watches out for what comes and goes. Its first segment waits until an `A` has come, at
whatever time, and a `B` is there. -/

/-- An object of which only the name is known. -/
def object (id : Int64) (name : String) : Object := ⟨id, none, some name, [], none, []⟩

/-- Something that has come to a path. -/
def arrival (path : String) : PathTest := ⟨path, .nonZero, 0, 1, 0⟩

/-- A playlist that watches out for an `A` and a `B`. -/
def watch : Playlist where
  name := "watch"
  lists :=
    [⟨"main", "", 1,
      [{ Segment.ofName "wait" with
          endCriteria := [(Criteria.of (.path false (arrival "A"))).transient,
            .of (.path false ⟨"B", .nonZero, 0, 0, 0⟩)] },
        .ofName "go"]⟩]

/-- What there is to see in a second, counted from zero. -/
def sight : Nat → List Object
  | 1 => [object 1 "A"]
  | 2 => [object 2 "B"]
  | _ => []

/-- A second of the watch. -/
def glance (n : Nat) : Beat := ⟨1.0, { Frame.empty with objects := sight n }, ⟨0, 1, 1⟩⟩

/-- The watch after some seconds. -/
def watchAfter : Nat → PlaybackRun
  | 0 => .of watch .default "a-watch" 0
  | n + 1 => ((watchAfter n).tick (glance n) (.of .empty)).subject

/-- The chronicle of the watch after some seconds. -/
def watched : Nat → List TickRecord
  | 0 => []
  | n + 1 => (watchAfter n).record (glance n) (.of .empty) :: watched n

/-- The chronicle is the one of the watch as long as the watch goes on. -/
theorem watch_chronicled (n : Nat) (hn : ∀ k < n, (watchAfter k).result = none) :
    Chronicled watch .default (watchAfter n) (watched n) := by
  induction n with
  | zero => exact .fresh (.of "a-watch" 0)
  | succ n ih =>
    exact (ih fun k hk => hn k (Nat.lt_succ_of_lt hk)).tick (hn n (Nat.lt_succ_self n)) _ _

/-- The watch does not end in its first four seconds. -/
theorem watch_goesOn (k : Nat) (hk : k < 4) : (watchAfter k).result = none := by
  have hall : ∀ k < 4, (watchAfter k).result.isNone := by decide +kernel
  exact Option.isNone_iff_eq_none.mp (hall k hk)

/-- The `B` with which the first segment was completed has gone a second later, and is found to
have. -/
theorem watch_misses_b :
    (lastCompletion? (watched 3)).map (fun s => s.idsAt "B" false) = some [2] ∧
      (⟨"B", .zero, 0, 0, 1⟩ : PathTest).Enough false (lastCompletion? (watched 3))
        ((watchAfter 3).moment (glance 3) (.of .empty)).snapshot := by
  have hchronicled := watch_chronicled 3 fun k hk => watch_goesOn k (by omega)
  obtain ⟨-, hsees⟩ := key_frame_is_last_completion hchronicled (watch_goesOn 3 (by decide))
    (glance 3) (.of .empty)
  obtain ⟨-, henough⟩ := hsees (.of (.ofName "go") "main" 2 true) (.of .empty)
  exact ⟨by decide +kernel, henough "2/end.0" 1 false false _ .none (by decide +kernel) (by simp)⟩

/-- **A path criteria that was latched counts nothing.** The `A` that has come in the second second
of the watch has gone by the third. The criteria that waits for an arrival is still met then, with
nothing at its path. -/
theorem latched_criteria_counts_nothing :
    ¬ ∀ (p : Playlist) (c : Config) (r : PlaybackRun) (past : List TickRecord) (b : Beat)
        (env env' : Environment) (s : SegmentRun) (key : Key) (v : Version)
        (isTransient isPartial : Bool) (test : PathTest) (notes : Notes),
      Chronicled p c r past → r.result = none → s ∈ r.segments → s.state = .awaitingCompletion →
        (key, .single v isTransient (.path isPartial test)) ∈
          Criteria.withKeys (s.key .completion) (s.criteria .completion) →
        (Criteria.evaluateKeyed (s.view (r.moment b env) env') key
          (.single v isTransient (.path isPartial test)) notes).1 = .ok .met →
          test.Enough isPartial (lastCompletion? past) (r.moment b env).snapshot := by
  intro hall
  have hchronicled := watch_chronicled 2 fun k hk => watch_goesOn k (by omega)
  have hfirst : (watchAfter 2).segments[0]?.map (fun s => (s.state, s.latched)) =
      some (.awaitingCompletion, ["1/end.0"]) := by decide +kernel
  obtain ⟨s, hs, hfacts⟩ := Option.map_eq_some_iff.mp hfirst
  obtain ⟨hstate, hlatched⟩ := Prod.mk.inj hfacts
  -- the segment is the one of the playlist, and so are its criteria
  have horigin := hchronicled.reachable.sound.segment_at 0
  rw [hs] at horigin
  injection Option.some.inj horigin with hsegment _ hnumber
  have hmem : ("1/end.0", Criteria.single 1 true (.path false (arrival "A"))) ∈
      Criteria.withKeys (s.key .completion) (s.criteria .completion) := by
    rw [SegmentRun.key, hnumber, SegmentRun.criteria, hsegment]
    exact List.mem_cons_self
  have hmet : (Criteria.evaluateKeyed
      (s.view ((watchAfter 2).moment (glance 2) (.of .empty)) (.of .empty)) "1/end.0"
      (.single 1 true (.path false (arrival "A"))) .none).1 = .ok .met := by
    have hview : (s.view ((watchAfter 2).moment (glance 2) (.of .empty)) (.of .empty)).latched =
        ["1/end.0"] := hlatched
    rw [Criteria.evaluateKeyed, hview]
    rfl
  have henough := hall watch .default (watchAfter 2) (watched 2) (glance 2) (.of .empty)
    (.of .empty) s "1/end.0" 1 true false (arrival "A") .none hchronicled
    (watch_goesOn 2 (by decide)) (List.mem_of_getElem? hs) hstate hmem hmet
  -- the criteria is met, but nothing is at its path
  obtain ⟨id, hat, -⟩ := henough.added.exists (by decide)
  have hnone : ((watchAfter 2).moment (glance 2) (.of .empty)).snapshot.idsAt "A" false = [] := by
    decide +kernel
  have hid : id ∈ ((watchAfter 2).moment (glance 2) (.of .empty)).snapshot.idsAt "A" false :=
    isAt_iff.mp hat
  rw [hnone] at hid
  exact absurd hid List.not_mem_nil

end PlaybackRun

end Playtest
