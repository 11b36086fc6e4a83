import Playtest.Proofs.Playback.BreakingOff
import Playtest.Proofs.Playback.HostCalls
import Playtest.Proofs.Playback.Results

/-!
# Optional lists decide nothing

Put an optional list behind a playlist, and nothing changes for the lists in front of it, whatever
becomes of the one behind. The main result, `PlaybackRun.optional_list_decides_nothing`, compares
the run of a playlist with the run of the same playlist with one list more. Neither has a time
limit, and nobody ends them.

Two such runs are in one of the four situations of `PlaybackRun.Trailed`. They go on together as
long as it is not the turn of the list behind. A segment that is fatal breaks both of them off, and
the list behind is still untouched by then. Otherwise the shorter run ends well, and the longer one
goes on with nothing but its last list. That list is not fatal for anybody, because none of its
segments is needed (`ListRun.Spare`), and that is also why it has no say in the success of the
longer run.
-/

namespace Playtest

open Playtest.Scene

variable {m : Moment} {env env' : Environment} {reason : String} {k : SegmentList}

/-- The call **leaves the run in peace**: it is no attempt to end it, and the run hears no
signal. -/
def HostCall.Peaceful (r : PlaybackRun) : HostCall → Prop
  | .tick b => ¬ r.Signalled b
  | .abort _ => False
  | .meanwhile _ => True

/-- What no tick has reached is reported as not started when it is broken off. -/
theorem SegmentRun.outcome_result_cutOff {s : SegmentRun} (h : s.state = .pending) :
    (s.cutOff reason).result.outcome = .notStarted := by
  rw [result_outcome, outcome_eq_notStarted_iff, cutOff_of_pending reason h]
  exact .inr rfl

namespace ListRun

variable {l l' : ListRun} {e : ListEvent}

/-- A run of the list **that the run of the playlist can spare**. -/
structure Spare (k : SegmentList) (l : ListRun) : Prop where
  valid : l.Valid
  isOptional : l.isOptional
  segments : l.segments.map SegmentRun.segment = k.segments

/-- None of its segments is needed. -/
theorem Spare.not_isRequired (h : l.Spare k) : ∀ s ∈ l.segments, ¬ s.isRequired :=
  h.valid.optional h.isOptional

/-- It can be spared as long as it is the list that it was made as. -/
theorem Spare.of_origin_eq (h : l.Spare k) (ho : l'.origin = l.origin) (hv : l'.Valid) :
    l'.Spare k where
  valid := hv
  -- the settings say the same about it
  isOptional := by
    have hoptional : l'.isOptional = l.isOptional := by injection ho
    exact hoptional ▸ h.isOptional
  segments := by
    have hsegments := congrArg (List.map SegmentRun.segment) (origin_eq_iff.mp ho).2
    rw [List.map_map, List.map_map] at hsegments
    exact hsegments.trans h.segments

/-- A tick leaves it one that can be spared. -/
theorem Plays.spare (h : Plays m l env l' e env') (hl : l.Spare k) : l'.Spare k :=
  hl.of_origin_eq h.origin_eq (h.valid hl.valid)

/-- So does breaking it off. -/
theorem Spare.cutOff (h : l.Spare k) (reason : String) : (l.cutOff reason).Spare k :=
  h.of_origin_eq origin_cutOff (h.valid.cutOff reason).toValid

/-- **A list that can be spared is not fatal.** -/
theorem Plays.not_fatal (h : Plays m l env l' e env') (hl : l.Spare k) :
    ∀ reason, e ≠ .fatal reason := by
  rintro reason rfl
  -- only a segment that is needed is fatal
  obtain ⟨s, rest, ha, hr, -⟩ := h.of_fatal
  have hs : s ∈ l.segments := List.mem_append_right _ (ha ▸ List.mem_cons_self)
  exact hl.not_isRequired s hs hr

end ListRun

namespace PlaybackRun

open ListRun

variable {c : Config} {b : Beat} {r r' t t' : PlaybackRun} {call : HostCall} {l : ListRun}
  {ls front back : List ListRun} {u : ListTicks}

/-! ### Rounds -/

/-- A list that can be spared is played by itself. -/
theorem Round.spare (h : Round m [l] env u env') (hl : l.Spare k) :
    ∃ l', l'.Spare k ∧ u.lists = [l'] ∧ u.fatal = none := by
  cases h with
  | finished _ h =>
    -- it has finished, and stays as it is
    cases h
    exact ⟨l, hl, rfl, rfl⟩
  | fatal hf he => exact absurd he ((tick_plays hf).not_fatal hl _)
  | parallel hf _ _ h =>
    cases h
    exact ⟨_, (tick_plays hf).spare hl, rfl, rfl⟩
  | last hf => exact ⟨_, (tick_plays hf).spare hl, rfl, rfl⟩

/-- Lists that have finished are passed over. -/
theorem Round.behind_finished (hf : ∀ l ∈ front, l.isFinished) (h : Round m back env u env') :
    Round m (front ++ back) env { u with lists := front ++ u.lists } env' := by
  induction front with
  | nil => exact h
  -- the one in front is passed over, and the round goes on as for the lists behind it
  | cons l rest ih =>
    rw [List.forall_mem_cons] at hf
    exact .finished hf.1 (ih hf.2)

/-- What stands behind a list that has not finished **is not reached**, if no list lets others
pass. -/
theorem Round.in_front (h : Round m ls env u env') (halone : ∀ l ∈ ls, ¬ l.isParallel)
    (hu : ¬ ∀ l ∈ ls, l.isFinished) (back : List ListRun) :
    Round m (ls ++ back) env { u with lists := u.lists ++ back } env' := by
  induction h with
  | nil => exact absurd (fun _ hl => absurd hl List.not_mem_nil) hu
  | finished hf _ ih =>
    rw [List.forall_mem_cons] at halone hu
    exact .finished hf (ih halone.2 fun hrest => hu ⟨hf, hrest⟩)
  -- here the round is over, whatever comes behind
  | fatal hf he => exact .fatal hf he
  | last hf he hp => exact .last hf he hp
  | parallel _ _ hp =>
    rw [List.forall_mem_cons] at halone
    exact absurd hp halone.1

/-- No list lets others pass that did not do so before. -/
theorem Round.alone (h : Round m ls env u env') (hl : ∀ l ∈ ls, ¬ l.isParallel) :
    ∀ l ∈ u.lists, ¬ l.isParallel :=
  h.forall_mem (fun _ _ hf hl _ => (tick_plays hf).isParallel_eq ▸ hl) hl

/-! ### Calls that leave a run in peace -/

/-- A listener that hears nothing stays as it is. -/
theorem listener_begun (h : ¬ Signalled b r) : (r.begun b).listener = r.listener := by
  change r.listener.map (·.look b.signal) = _
  cases hl : r.listener with
  | none => rfl
  | some listener =>
    have hears : listener.hears b.signal = false :=
      Bool.eq_false_iff.mpr fun hh => h ⟨listener, hl, hh⟩
    -- had it heard something before, then it would hear it now
    have hcalm : listener.isAborted = false := by
      simp only [Abort.Listener.hears, Bool.or_eq_false_iff] at hears
      exact hears.1
    rw [Option.map_some, Abort.Listener.look, hears, ← hcalm]

/-- Where there is no time limit and no signal, a tick finds nothing in its way. -/
theorem obstacle?_of_peace (hs : ¬ Signalled b r) (ht : r.timeout = none) :
    (r.begun b).obstacle? = none := by
  refine obstacle?_eq_none hs fun timeout hl => ?_
  have hl := hl.1
  rw [ht] at hl
  cases hl

/-- A call that leaves a run in peace leaves it to listen for what it listened for, and as long. -/
theorem serve_of_peace (hc : call.Peaceful r) (ht : r.timeout = none) (env : Environment) :
    (serve call r env).subject.listener = r.listener ∧
      (serve call r env).subject.timeout = none := by
  cases hr : r.result with
  | some result =>
    -- a run that has ended hears of nothing
    have hsilent := serveAll_of_ended hr [call] env
    have hsame : (serve call r env).subject = r := congrArg Turn.subject hsilent
    rw [hsame]
    exact ⟨rfl, ht⟩
  | none =>
    cases call with
    | tick b =>
      have hlistener := listener_begun hc
      have ho := obstacle?_of_peace hc ht
      rw [serve]
      -- fatal or not, a tick only looks for the signal, and sets no time limit
      cases hf : (r.round b env).subject.fatal with
      | some reason =>
        rw [(tick_of_fatal hr ho hf).1]
        exact ⟨hlistener, ht⟩
      | none =>
        rw [(tick_of_not_fatal hr ho hf).2]
        split <;> exact ⟨hlistener, ht⟩
    | abort => exact hc.elim
    | meanwhile => exact ⟨rfl, ht⟩

/-- Whether a call leaves a run in peace hangs only on what the run listens for. -/
theorem peaceful_congr (h : r'.listener = r.listener) (hc : call.Peaceful r) :
    call.Peaceful r' := by
  cases call with
  | tick b =>
    rintro ⟨listener, hl, hears⟩
    exact hc ⟨listener, h.symm.trans hl, hears⟩
  | abort => exact hc
  | meanwhile => exact hc

/-! ### A run and one with a list more -/

/-- Two runs that **go on together**. The second one has a list more, and it is not the turn of that
list. -/
structure Together (k : SegmentList) (l : ListRun) (r r' : PlaybackRun) : Prop where
  result : r.result = none
  result' : r'.result = none
  lists : r'.lists = r.lists ++ [l]
  spare : l.Spare k
  untouched : l.Untouched
  alone : ∀ l ∈ r.lists, ¬ l.isParallel
  ticks : r'.ticks = r.ticks
  keyFrame : r'.keyFrame = r.keyFrame

/-- How a run stands to one that has **one list more**, which it can spare, and their
environments. -/
inductive Trailed (k : SegmentList) (r r' : PlaybackRun) (env env' : Environment) : Prop
  | together {l : ListRun} (henv : env' = env) (h : Together k l r r')
  /-- Both were broken off because of one segment. -/
  | broken {t t' : PlaybackRun} {reason : String} {l : ListRun}
      (hr : r = (t.cutOff reason).ended false)
      (hr' : r' = (t'.cutOff reason).ended false) (hlists : t'.lists = t.lists ++ [l])
      (hl : l.Spare k) (hu : l.Untouched) (hfailure : t.failure.isSome)
  /-- One has ended well, and the other still plays the list more. -/
  | behind {t : PlaybackRun} {l : ListRun} (hr : r = t.ended true) (hr' : r'.result = none)
      (hlists : r'.lists = t.lists ++ [l]) (hl : l.Spare k)
      (hfinished : ∀ l ∈ t.lists, l.isFinished) (hfailure : t.failure = none)
  | settled {t t' : PlaybackRun} {l : ListRun} (hr : r = t.ended true) (hr' : r' = t'.ended true)
      (hlists : t'.lists = t.lists ++ [l]) (hl : l.Spare k) (hfailure : t.failure = none)

/-- **A tick when only the longer run goes on.** -/
theorem trailed_tick_behind (hr : r = t.ended true) (hr' : r'.result = none)
    (hlists : r'.lists = t.lists ++ [l]) (hl : l.Spare k) (hfinished : ∀ l ∈ t.lists, l.isFinished)
    (hfailure : t.failure = none) (hs' : ¬ Signalled b r') (ht' : r'.timeout = none)
    (env env' : Environment) :
    Trailed k r (r'.tick b env').subject env (r'.tick b env').env := by
  -- the lists in front are passed over, and the last one plays by itself
  have hlast := tickLists_round (r'.moment b env') [l] (r'.opened b env')
  obtain ⟨l', hl', hafter, hfatal⟩ := hlast.spare hl
  have hround := (hlast.behind_finished hfinished).eq.1
  rw [← hlists] at hround
  change _ = (r'.round b env').subject at hround
  have hf : (r'.round b env').subject.fatal = none := by
    rw [← hround]
    exact hfatal
  have hplayed : (r'.played b env').lists = t.lists ++ [l'] := by
    change (r'.round b env').subject.lists = _
    rw [← hround, ← hafter]
  rw [(tick_of_not_fatal hr' (obstacle?_of_peace hs' ht') hf).2]
  split
  · exact .settled hr rfl hplayed hl' hfailure
  · exact .behind hr hr' hplayed hl' hfinished hfailure

/-- A round in which all lists have finished changes none of them. -/
theorem round_of_finished (b : Beat) (env : Environment) (hf : ∀ l ∈ r.lists, l.isFinished) :
    (r.played b env).lists = r.lists ∧ (r.round b env).subject.fatal = none := by
  have hnothing : Round (r.moment b env) (r.lists ++ []) (r.opened b env)
      ⟨r.lists ++ [], false, none⟩ (r.opened b env) :=
    Round.behind_finished hf .nil
  rw [List.append_nil] at hnothing
  have hround : _ = (r.round b env).subject := hnothing.eq.1
  change (r.round b env).subject.lists = _ ∧ _
  rw [← hround]
  exact ⟨rfl, rfl⟩

/-- As long as something in front of it has not finished, the list more makes no difference in a
round. -/
theorem Together.round (h : Together k l r r') (b : Beat) (env : Environment)
    (hu : ¬ ∀ l ∈ r.lists, l.isFinished) :
    (r'.round b env).subject =
        { (r.round b env).subject with lists := (r.round b env).subject.lists ++ [l] } ∧
      (r'.round b env).env = (r.round b env).env := by
  have hround := tickLists_round (r.moment b env) r.lists (r.opened b env)
  obtain ⟨hsubject, henv⟩ := (hround.in_front h.alone hu [l]).eq
  unfold PlaybackRun.round
  rw [h.lists, moment_congr h.ticks h.keyFrame, opened_congr h.ticks]
  exact ⟨hsubject.symm, henv.symm⟩

/-- So the runs still go on together after such a round. -/
theorem Together.played (h : Together k l r r') (b : Beat) (env : Environment)
    (hu : ¬ ∀ l ∈ r.lists, l.isFinished) : Together k l (r.played b env) (r'.played b env) := by
  obtain ⟨hround, -⟩ := h.round b env hu
  refine { h with
    lists := ?_
    alone := (tickLists_round (r.moment b env) r.lists (r.opened b env)).alone h.alone
    ticks := congrArg (· + 1) h.ticks
    keyFrame := ?_ }
  · -- the lists in front are as in the shorter run, and the list more comes last
    change (r'.round b env).subject.lists = _
    rw [hround]
    rfl
  · -- it is a key frame for both or for none
    change (if _ then _ else r'.keyFrame) = if _ then _ else r.keyFrame
    rw [hround, moment_congr h.ticks h.keyFrame, h.keyFrame]

/-- The list behind has not begun, and so the longer run does not end. -/
theorem Together.not_all_isFinished (h : Together k l r r') :
    ¬ r'.lists.all ListRun.isFinished := by
  rw [h.lists, List.all_append, Bool.and_eq_true, not_and]
  intro _ hlast
  exact h.untouched.not_isFinished (List.all_eq_true.mp hlast l List.mem_cons_self)

/-- **A tick of both runs** as long as they go on together. -/
theorem Together.tick (h : Together k l r r') (hs : ¬ Signalled b r) (hs' : ¬ Signalled b r')
    (ht : r.timeout = none) (ht' : r'.timeout = none) (env : Environment) :
    Trailed k (r.tick b env).subject (r'.tick b env).subject (r.tick b env).env
      (r'.tick b env).env := by
  have ho := obstacle?_of_peace hs ht
  have ho' := obstacle?_of_peace hs' ht'
  by_cases hfinished : ∀ l ∈ r.lists, l.isFinished
  · -- there is nothing in front, and so the shorter run ends at once
    obtain ⟨hplayed, hf⟩ := round_of_finished b env hfinished
    have hend : (r.tick b env).subject = (r.played b env).ended true := by
      rw [(tick_of_not_fatal h.result ho hf).2, hplayed, if_pos (List.all_eq_true.mpr hfinished)]
    have hlists := h.lists
    rw [← hplayed] at hlists hfinished
    exact trailed_tick_behind hend h.result' hlists h.spare hfinished hf hs' ht'
      (r.tick b env).env env
  obtain ⟨hround, henv⟩ := h.round b env hfinished
  have hplayed := h.played b env hfinished
  -- the round is the same for both, and so is the segment that is fatal
  have hfatal : (r'.round b env).subject.fatal = (r.round b env).subject.fatal := by rw [hround]
  cases hf : (r.round b env).subject.fatal with
  | some reason =>
    rw [(tick_of_fatal h.result ho hf).1, (tick_of_fatal h.result' ho' (hfatal.trans hf)).1]
    refine .broken rfl rfl hplayed.lists h.spare h.untouched ?_
    change (r.round b env).subject.fatal.isSome
    rw [hf]
    rfl
  | none =>
    obtain ⟨hafter, hend⟩ := tick_of_not_fatal h.result ho hf
    obtain ⟨hafter', hend'⟩ := tick_of_not_fatal h.result' ho' (hfatal.trans hf)
    -- the longer run does not end here, since its last list has not begun
    rw [if_neg hplayed.not_all_isFinished] at hend'
    rw [hend, hend', hafter, hafter']
    split
    · next hall => exact .behind rfl h.result' hplayed.lists h.spare (List.all_eq_true.mp hall) hf
    · exact .together henv hplayed

/-- **A call of both runs.** -/
theorem Trailed.serve (h : Trailed k r r' env env') (hc : call.Peaceful r) (hc' : call.Peaceful r')
    (ht : r.timeout = none) (ht' : r'.timeout = none) :
    Trailed k (serve call r env).subject (serve call r' env').subject (serve call r env).env
      (serve call r' env').env := by
  -- a run that has ended stays as it is, whatever the environment
  have hstill : ∀ {r : PlaybackRun} {result : RunResult}, r.result = some result →
      ∀ env, (PlaybackRun.serve call r env).subject = r :=
    fun hended env => congrArg Turn.subject (serveAll_of_ended hended [call] env)
  cases h with
  | together henv h =>
    -- the environments are one
    subst henv
    cases call with
    | tick b => exact h.tick hc hc' ht ht' env'
    | abort => exact hc.elim
    | meanwhile => exact .together rfl h
  | broken hr hr' hlists hl hu hfailure =>
    -- both have ended
    rw [hstill (congrArg PlaybackRun.result hr), hstill (congrArg PlaybackRun.result hr')]
    exact .broken hr hr' hlists hl hu hfailure
  | behind hr hr' hlists hl hfinished hfailure =>
    -- the shorter run has ended, and the longer one plays its last list
    rw [hstill (congrArg PlaybackRun.result hr)]
    cases call with
    | tick b => exact trailed_tick_behind hr hr' hlists hl hfinished hfailure hc' ht' _ env'
    | abort => exact hc.elim
    | meanwhile => exact .behind hr hr' hlists hl hfinished hfailure
  | settled hr hr' hlists hl hfailure =>
    rw [hstill (congrArg PlaybackRun.result hr), hstill (congrArg PlaybackRun.result hr')]
    exact .settled hr hr' hlists hl hfailure

/-- **All calls of both runs.** -/
theorem Trailed.serveAll (cs : List HostCall) (h : Trailed k r r' env env')
    (hcs : ∀ call ∈ cs, call.Peaceful r ∧ call.Peaceful r') (ht : r.timeout = none)
    (ht' : r'.timeout = none) :
    Trailed k (serveAll cs r env).subject (serveAll cs r' env').subject (serveAll cs r env).env
      (serveAll cs r' env').env := by
  -- induction over the calls, with the situation of the two runs as the invariant
  induction cs generalizing r r' env env' with
  | nil => exact h
  | cons call cs ih =>
    rw [List.forall_mem_cons] at hcs
    obtain ⟨⟨hc, hc'⟩, hcs⟩ := hcs
    have hafter := h.serve hc hc' ht ht'
    -- the runs go on to listen for the same, and so the other calls leave them in peace, too
    obtain ⟨hlistener, ht⟩ := serve_of_peace hc ht env
    obtain ⟨hlistener', ht'⟩ := serve_of_peace hc' ht' env'
    refine ih hafter (fun call hm => ?_) ht ht'
    obtain ⟨hc, hc'⟩ := hcs call hm
    exact ⟨peaceful_congr hlistener hc, peaceful_congr hlistener' hc'⟩

/-! ### What is reported -/

/-- The segments of the list more come last. -/
theorem segments_of_lists (h : r'.lists = r.lists ++ [l]) :
    r'.segments = r.segments ++ l.segments := by
  unfold PlaybackRun.segments
  rw [h, List.flatMap_append, List.flatMap_singleton]

/-- So do their entries in the result. -/
theorem entries_of_lists (h : t'.lists = t.lists ++ [l]) (ranThrough : Bool) :
    (t'.outcome ranThrough).segments =
      (t.outcome ranThrough).segments ++ l.segments.map SegmentRun.result := by
  change t'.segments.map _ = t.segments.map _ ++ _
  rw [segments_of_lists h, List.map_append]

/-- Breaking off reaches the list more as well, and leaves it in its place. -/
theorem lists_cutOff (h : t'.lists = t.lists ++ [l]) (reason : String) :
    (t'.cutOff reason).lists = (t.cutOff reason).lists ++ [l.cutOff reason] := by
  change t'.lists.map _ = t.lists.map _ ++ _
  rw [h, List.map_append, List.map_singleton]

/-- A list that can be spared is reported under the names of its segments. -/
theorem names_of_spare (hl : l.Spare k) :
    (l.segments.map SegmentRun.result).map SegmentResult.segmentName =
      k.segments.map Segment.name := by
  rw [← hl.segments, List.map_map, List.map_map]
  exact List.map_congr_left fun s _ => s.result_names.2.1

/-- The list more has no say in the success. -/
theorem success_of_spare (hlists : t'.lists = t.lists ++ [l]) (hl : l.Spare k) (ranThrough : Bool) :
    (t'.outcome ranThrough).success = (t.outcome ranThrough).success := by
  have hpass : (l.segments.map SegmentRun.result).all (fun s => !s.isRequired || s.passed) =
      true := by
    rw [List.all_map, List.all_eq_true]
    intro s hs
    have hr : s.isRequired = false := Bool.eq_false_iff.mpr (hl.not_isRequired s hs)
    change (!s.result.isRequired || s.result.passed) = true
    rw [SegmentRun.result_isRequired, hr]
    rfl
  -- what is not required has no say
  change (ranThrough && (t'.segments.map SegmentRun.result).all _) = _
  rw [segments_of_lists hlists, List.map_append, List.all_append, hpass, Bool.and_true]
  rfl

/-- When both runs are broken off, nothing of the list behind was reached, and all of it is
skipped. -/
theorem entries_of_broken (hlists : t'.lists = t.lists ++ [l]) (hl : l.Spare k) (hu : l.Untouched)
    (reason : String) :
    ∃ rest, ((t'.cutOff reason).outcome false).segments =
      ((t.cutOff reason).outcome false).segments ++ rest ∧
      rest.map SegmentResult.segmentName = k.segments.map Segment.name ∧
      ∀ entry ∈ rest, entry.outcome = .notStarted := by
  refine ⟨_, entries_of_lists (lists_cutOff hlists reason) false,
    names_of_spare (hl.cutOff reason), ?_⟩
  rw [ListRun.segments_cutOff, List.forall_mem_map, List.forall_mem_map, hu.segments_eq]
  exact fun s hs => SegmentRun.outcome_result_cutOff (hu.pending s hs)

/-- Every segment of a list gets its run. -/
theorem map_segment_segmentRuns (c : Config) (list : String) (number : Nat) (ss : List Segment) :
    (segmentRuns c list number ss).map SegmentRun.segment = ss := by
  induction ss generalizing number with
  | nil => rfl
  | cons s rest ih => exact congrArg (List.cons s) (ih (number + 1))

/-- A list that is optional can be spared, and waits to be reached. -/
theorem spare_of_listRuns {n : Nat} (hl : listRuns c n [k] = [l]) (ho : c.isOptionalList k.name) :
    l.Spare k ∧ l.Untouched := by
  have hu : l.Untouched := listRuns_untouched c n [k] l (by rw [hl]; exact List.mem_cons_self)
  obtain rfl := (List.cons.inj hl).1
  exact ⟨⟨hu.sound.toValid, ho, map_segment_segmentRuns c k.name n k.segments⟩, hu⟩

/-- Runs that have not begun go on together. -/
theorem Fresh.trailed {name name' : String} {ls : List SegmentList} (h : Fresh ⟨name, ls⟩ c r)
    (h' : Fresh ⟨name', ls ++ [k]⟩ c r') (ho : c.isOptionalList k.name)
    (halone : ∀ l ∈ ls, ¬ c.isParallelList l.name) (env : Environment) :
      Trailed k r r' env env := by
  obtain ⟨n, hn⟩ := listRuns_append c 1 ls [k]
  -- the lists are made one by one, and so the list more is the last of them
  obtain ⟨l, hl⟩ : ∃ l, listRuns c n [k] = [l] := ⟨_, rfl⟩
  obtain ⟨hspare, huntouched⟩ := spare_of_listRuns hl ho
  refine .together rfl ⟨h.idle.2, h'.idle.2, ?_, hspare, huntouched, fun l hl => ?_,
    h'.ticks.trans h.ticks.symm, h'.keyFrame.trans h.keyFrame.symm⟩
  · rw [h'.lists_eq, h.lists_eq, ← hl]
    exact hn
  · rw [h.lists_eq] at hl
    obtain ⟨k, hk, n, hn⟩ := exists_of_mem_listRuns hl
    obtain rfl := (List.cons.inj hn).1
    exact halone k hk

/-- **An optional list decides nothing.** Take a playlist without parallel lists, and the same
playlist with an optional list `k` behind it. Let runs of both have no time limit, and leave them in
peace. After the same calls, with environments that were the same in the beginning,

* as long as the shorter run has not ended, neither has the longer one, the environments still are
  the same, and so is every segment in front of `k`, with its state and all that it has been
  through,
* if a segment was fatal for the shorter run, then the longer run has ended, too. It reports the
  same of all segments in front of `k`, and nothing of `k` was started,
* if the shorter run ended otherwise, and the longer one has ended as well, then both are a success
  or none is, and what they report of the segments in front of `k` is the same. -/
theorem optional_list_decides_nothing {name name' : String} {ls : List SegmentList}
    (h : Fresh ⟨name, ls⟩ c r) (h' : Fresh ⟨name', ls ++ [k]⟩ c r') (ho : c.isOptionalList k.name)
    (halone : ∀ l ∈ ls, ¬ c.isParallelList l.name) (ht : r.timeout = none) (ht' : r'.timeout = none)
    {cs : List HostCall} (hcs : ∀ call ∈ cs, call.Peaceful r ∧ call.Peaceful r')
    (env : Environment) :
    let shorter := serveAll cs r env
    let longer := serveAll cs r' env
    (shorter.subject.result = none →
      longer.subject.result = none ∧ longer.env = shorter.env ∧
        ∃ rest, longer.subject.segments = shorter.subject.segments ++ rest ∧
          rest.map SegmentRun.segment = k.segments) ∧
    ∀ result, shorter.subject.result = some result →
      (shorter.subject.failure.isSome →
        ∃ result' rest, longer.subject.result = some result' ∧ result'.success = result.success ∧
          result'.segments = result.segments ++ rest ∧
          rest.map SegmentResult.segmentName = k.segments.map Segment.name ∧
          ∀ entry ∈ rest, entry.outcome = .notStarted) ∧
      (shorter.subject.failure = none → ∀ result', longer.subject.result = some result' →
        result'.success = result.success ∧ ∃ rest, result'.segments = result.segments ++ rest ∧
          rest.map SegmentResult.segmentName = k.segments.map Segment.name) := by
  intro shorter longer
  have hend : Trailed k shorter.subject longer.subject shorter.env longer.env :=
    (h.trailed h' ho halone env).serveAll cs hcs ht ht'
  generalize shorter.subject = r₁, longer.subject = r₂ at hend ⊢
  cases hend with
  | together henv h =>
    refine ⟨fun _ => ⟨h.result', henv, _, segments_of_lists h.lists, h.spare.segments⟩,
      fun result hresult => ?_⟩
    -- the shorter run has not ended, and so there is no result
    rw [h.result] at hresult
    cases hresult
  | @broken t t' reason l hr hr' hlists hl hu hfailure =>
    subst hr hr'
    refine ⟨fun hn => (by cases hn), fun result hresult => ⟨fun _ => ?_, fun hn => ?_⟩⟩
    · -- both were broken off, and nothing of the list more was started
      obtain rfl := Option.some.inj hresult
      obtain ⟨rest, hrest, hnames, hnotStarted⟩ := entries_of_broken hlists hl hu reason
      exact ⟨_, rest, rfl, success_of_spare (lists_cutOff hlists reason) (hl.cutOff reason) false,
        hrest, hnames, hnotStarted⟩
    · -- without a segment that is fatal they would not have been
      have hn : t.failure = none := hn
      rw [hn] at hfailure
      cases hfailure
  | @behind t _ hr hr' _ _ _ hfailure =>
    subst hr
    refine ⟨fun hn => (by cases hn), fun result _ => ⟨fun hn => ?_, fun _ result' hresult' => ?_⟩⟩
    · -- no segment was fatal for the shorter run
      have hn : t.failure.isSome := hn
      rw [hfailure] at hn
      cases hn
    · -- the longer run has not ended yet
      rw [hr'] at hresult'
      cases hresult'
  | @settled t t' _ hr hr' hlists hl hfailure =>
    subst hr hr'
    refine ⟨fun hn => (by cases hn), fun result hresult =>
      ⟨fun hn => ?_, fun _ result' hresult' => ?_⟩⟩
    · -- no segment was fatal for the shorter run
      have hn : t.failure.isSome := hn
      rw [hfailure] at hn
      cases hn
    · -- both have ended well
      obtain rfl := Option.some.inj hresult
      obtain rfl := Option.some.inj hresult'
      exact ⟨success_of_spare hlists hl true, _, entries_of_lists hlists true, names_of_spare hl⟩

/-- A list that ends with its first segment. -/
def pastime : SegmentList := ⟨"side", "", 1, [riddle, .ofName "rest"]⟩

/-- A run of one segment that is needed, and of the lists behind it. -/
def errand (s : Segment) (behind : List SegmentList) : PlaybackRun :=
  .of ⟨"errand", ⟨"main", "", 1, [s]⟩ :: behind⟩ lenient "an-errand" 0

/-- The errand after some nights. -/
def errandAfter (nights : Nat) (s : Segment) (behind : List SegmentList) : Turn PlaybackRun :=
  serveAll (List.replicate nights night) (errand s behind) (.of .empty)

/-- An errand that is done stays a success with a pastime behind it that fails, and one that fails
ends before the pastime has begun. -/
theorem errand_with_pastime :
    (∃ result result', (errandAfter 5 (.ofName "fetch") []).subject.result = some result ∧
      (errandAfter 5 (.ofName "fetch") [pastime]).subject.result = some result' ∧
      result'.segments.map SegmentResult.outcome = [.completed, .failed, .notStarted] ∧
      result'.success = result.success ∧ result.success ∧
      ∃ rest, result'.segments = result.segments ++ rest) ∧
    ∃ result result' rest, (errandAfter 5 riddle []).subject.result = some result ∧
      (errandAfter 5 riddle [pastime]).subject.result = some result' ∧
      result.segments.map SegmentResult.outcome = [.failed] ∧
      result'.segments = result.segments ++ rest ∧
      rest.map SegmentResult.segmentName = ["riddle", "rest"] ∧
      ∀ entry ∈ rest, entry.outcome = .notStarted := by
  have hfresh : ∀ s, Fresh ⟨"errand", [⟨"main", "", 1, [s]⟩]⟩ lenient (errand s []) :=
    fun _ => .of _ _
  have hfresh' : ∀ s, Fresh ⟨"errand", [⟨"main", "", 1, [s]⟩] ++ [pastime]⟩ lenient
      (errand s [pastime]) :=
    fun _ => .of _ _
  have halone : ∀ s, ∀ l ∈ [(⟨"main", "", 1, [s]⟩ : SegmentList)],
      ¬ lenient.isParallelList l.name := by
    intro s l hl
    rw [List.mem_singleton.mp hl]
    exact show ¬ lenient.isParallelList "main" by decide
  -- the runs listen for nothing
  have hpeace : ∀ s behind, ∀ call ∈ List.replicate 5 night,
      call.Peaceful (errand s behind) := by
    intro s behind call hc
    rw [List.eq_of_mem_replicate hc]
    rintro ⟨listener, hl, -⟩
    cases hl
  have hruns := fun s => optional_list_decides_nothing (hfresh s) (hfresh' s) (by decide)
    (halone s) rfl rfl
    (fun call hc => ⟨hpeace s [] call hc, hpeace s [pastime] call hc⟩) (.of .empty)
  constructor
  · have hshort : (errandAfter 5 (.ofName "fetch") []).subject.result.map RunResult.success =
        some true := by
      decide +kernel
    have hlong : (errandAfter 5 (.ofName "fetch") [pastime]).subject.result.map (fun result =>
        result.segments.map SegmentResult.outcome) = some [.completed, .failed, .notStarted] := by
      decide +kernel
    obtain ⟨result, hr, hsuccess⟩ := Option.map_eq_some_iff.mp hshort
    obtain ⟨result', hr', houtcomes⟩ := Option.map_eq_some_iff.mp hlong
    obtain ⟨-, hend⟩ := (hruns (.ofName "fetch")).2 result hr
    have hwell : (errandAfter 5 (.ofName "fetch") []).subject.failure = none := by decide +kernel
    obtain ⟨hsame, rest, hrest, -⟩ := hend hwell result' hr'
    exact ⟨result, result', hr, hr', houtcomes, hsame, hsuccess, rest, hrest⟩
  · have hshort : (errandAfter 5 riddle []).subject.result.map (fun result =>
        result.segments.map SegmentResult.outcome) = some [.failed] := by decide +kernel
    obtain ⟨result, hr, houtcomes⟩ := Option.map_eq_some_iff.mp hshort
    obtain ⟨hend, -⟩ := (hruns riddle).2 result hr
    have hfatal : (errandAfter 5 riddle []).subject.failure.isSome := by decide +kernel
    obtain ⟨result', rest, hr', -, hrest, hnames, hnotStarted⟩ := hend hfatal
    exact ⟨result, result', rest, hr, hr', houtcomes, hrest, hnames, hnotStarted⟩

end PlaybackRun

end Playtest
