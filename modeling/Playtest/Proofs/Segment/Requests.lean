import Playtest.Proofs.Criteria.Consulted
import Playtest.Proofs.Segment.Assessments
import Playtest.Proofs.Segment.Awaiting
import Playtest.Proofs.Segment.Transient
import Playtest.Proofs.Vision.Preparation

/-!
# The requests of a tick

A tick of a segment sends vision requests for what it is about to evaluate, and for nothing else
(`SegmentRun.submitted_tick`). An evaluation is held together with the segment and the environment
that its tick has found (`Inspection`), from which it can be told what is asked for. The evaluation
itself goes by the replies that there are once everything has been asked for (`Inspection.Sees`),
and by the latches from before the tick.

Which of these requests are for criteria that the evaluation looks at is the main result,
`Inspection.asked_or_passed_by`. A preparation knows nothing of latches or of faults, and so it asks
for all vision criteria, while evaluation looks neither below a latch nor behind a fault.
-/

namespace Playtest

open Scene Vision Vision.Coordinator

/-- An **evaluation in its place**: the segment and the environment as the tick has found them, and
what was evaluated. -/
structure Inspection where
  run : SegmentRun
  env : Environment
  assessment : Assessment

namespace Inspection

/-- The key of the list that is evaluated. -/
def key (i : Inspection) : Key := i.run.key i.assessment.phase

/-- The criteria that are evaluated. -/
def criteria (i : Inspection) : List Criteria := i.run.criteria i.assessment.phase

/-- The vision criteria among them. -/
def wanted (i : Inspection) : List (Key × VisionQuery) := Coordinator.wanted i.key i.criteria

/-- The turns on which a request is sent before the evaluation. -/
def served (m : Moment) (i : Inspection) : List (Coordinator × Key × VisionQuery) :=
  Coordinator.served m.snapshot i.env.vision i.wanted

/-- The requests that are sent before the evaluation. -/
def posted (m : Moment) (i : Inspection) : List Request :=
  Coordinator.posted m.snapshot i.env.vision i.wanted

/-- The coordinator when the requests have been sent. -/
def prepared (m : Moment) (i : Inspection) : Coordinator :=
  (i.env.vision.prepare i.key i.criteria m.snapshot).1

/-- The keys under which the evaluation asks for a reply. -/
def consulted (i : Inspection) : List Key :=
  Criteria.consultedAll i.assessment.view i.key i.criteria

/-- The evaluation **sees** the replies that there are when the requests have been sent, and the
latches from before. -/
structure Sees (m : Moment) (i : Inspection) : Prop where
  reply : i.assessment.view.reply = (i.prepared m).reply
  latched : i.assessment.view.latched = i.run.latched

end Inspection

namespace SegmentRun

variable {m : Moment} {env : Environment} {r r' : SegmentRun} {phase : Phase}

/-- What a tick evaluates, in its place. -/
def inspection? (m : Moment) (r : SegmentRun) (env : Environment) : Option Inspection :=
  (assessment? m r env).map fun assessment => ⟨r, env, assessment⟩

/-! ### What sends requests, and what does not -/

theorem submitted_releaseIfOver (r : SegmentRun) (env : Environment) :
    (releaseIfOver r env).env.vision.submitted = env.vision.submitted := by
  unfold releaseIfOver
  split <;> rfl

theorem submitted_checkTimeout (r : SegmentRun) (env : Environment) :
    (checkTimeout r env).env.vision.submitted = env.vision.submitted := by
  obtain ⟨cs, -, henv⟩ := checkTimeout_closes r env
  rw [henv]
  rfl

theorem submitted_judge (phase : Phase) (m : Moment) (r : SegmentRun) (env : Environment) :
    (judge phase m r env).env.vision.submitted = env.vision.submitted := by
  unfold judge
  dsimp only
  split
  · rfl
  split <;> rfl

/-- Only what comes before an evaluation sends requests. -/
theorem submitted_await (phase : Phase) (m : Moment) (r : SegmentRun) (env : Environment) :
    (await phase m r env).env.vision.submitted =
      env.vision.submitted ++ posted m.snapshot env.vision
        (wanted (r.key phase) (r.criteria phase)) := by
  rw [← submitted_prepareKeys]
  exact submitted_judge phase m r (r.asking phase m env)

/-- **Breaking a segment off sends nothing.** -/
theorem submitted_abort (reason : String) (r : SegmentRun) (env : Environment) :
    (r.abort reason env).env.vision.submitted = env.vision.submitted := by
  have hskip : (skip r env).env.vision.submitted = env.vision.submitted := by rw [(skip_eq env).2]
  unfold abort
  split
  · rfl
  split
  · exact hskip
  · change (abortAction r env).env.vision.submitted = _
    rw [abortAction_vision]

/-! ### What a tick sends -/

/-- What is asked for does not change while a tick opens. -/
theorem wanted_of_origin (h : r'.origin = r.origin) (phase : Phase) :
    wanted (r'.key phase) (r'.criteria phase) = wanted (r.key phase) (r.criteria phase) := by
  rw [key_eq_of_origin h, criteria_eq_of_origin h]

/-- How a tick **comes to what it sends**: it evaluates nothing and sends nothing, or it asks for
what it is about to evaluate, on a segment that has opened in some way by then. -/
inductive Posts (m : Moment) (env : Environment) (r : SegmentRun) :
    Option Assessment → List Request → Prop
  | nothing : Posts m env r none []
  | asking (phase : Phase) {r' : SegmentRun} {env' : Environment} (ho : r'.origin = r.origin)
      (hl : r'.latched = r.latched) (hv : env'.vision = env.vision) :
      Posts m env r (some ⟨r.ticks + 1, phase, sighting phase m r' env'⟩)
        (posted m.snapshot env.vision (wanted (r.key phase) (r.criteria phase)))

/-- Waiting for the criteria of a phase comes to what it sends in the way of that phase. -/
theorem exists_posts_await (phase : Phase) {env' : Environment} (ho : r'.origin = r.origin)
    (hl : r'.latched = r.latched) (hv : env'.vision = env.vision) :
    ∃ sent, Posts m env r (some ⟨r.ticks + 1, phase, sighting phase m r' env'⟩) sent ∧
      (await phase m r' env').env.vision.submitted = env.vision.submitted ++ sent := by
  refine ⟨_, .asking phase ho hl hv, ?_⟩
  rw [submitted_await, hv, wanted_of_origin ho]

/-- **A segment that begins** evaluates its entry criteria, unless it is too new. -/
theorem begin_posts (m : Moment) (env : Environment) (hs : r.state = .pending) :
    ∃ sent, Posts m env r (assessment? m r env) sent ∧
      (begin m (r.counted m.delta) env).env.vision.submitted = env.vision.submitted ++ sent := by
  unfold assessment? begin
  rw [hs]
  dsimp only [Turn.env_andThen]
  by_cases hv : Version.current < r.segment.effectiveVersion
  · -- the version is that of the same segment, whatever its state
    have hv' : Version.current <
        (enter .awaitingEntry (r.counted m.delta) env).subject.segment.effectiveVersion := hv
    rw [if_pos hv, if_pos hv']
    exact ⟨[], .nothing, (List.append_nil _).symm⟩
  · have hv' : ¬ Version.current <
        (enter .awaitingEntry (r.counted m.delta) env).subject.segment.effectiveVersion := hv
    rw [if_neg hv, if_neg hv']
    exact exists_posts_await .entry rfl rfl rfl

/-- Nothing that is asked for changes on the way to the end criteria. -/
theorem of_mem_completing? {t : Turn SegmentRun} (h : t ∈ completing? m r env) :
    t.subject.origin = r.origin ∧ t.subject.latched = r.latched ∧ t.env.vision = env.vision := by
  unfold completing? at h
  split at h
  · next hs =>
    obtain ⟨cs, henv, ho⟩ := dispatch_opens m env hs
    obtain ⟨hgo, heq⟩ := Option.ite_none_right_eq_some.mp h
    obtain rfl : (dispatch m r env).andThen (enter .awaitingCompletion) = t := Option.some.inj heq
    obtain ⟨hno, -⟩ | ⟨-, ho⟩ := ho
    · -- it was not dispatched, and then it does not go on
      exact absurd (hno.symm.trans hgo) Bool.false_ne_true
    · refine ⟨ho.onward.1.origin, ho.latched, ?_⟩
      change (dispatch m r env).env.vision = _
      rw [henv]
      rfl
  · next hs =>
    obtain rfl : poll m r env = t := Option.some.inj h
    obtain ⟨cs, henv, ho⟩ := poll_opens m env hs
    refine ⟨ho.onward.1.origin, ho.latched, ?_⟩
    rw [henv]
    rfl
  all_goals cases h

/-- A segment whose action is due, or under way, comes to its end criteria or only calls
handlers. -/
theorem advance_completing (m : Moment) (env : Environment)
    (hs : r.state = .executing ∨ r.state = .awaitingCompletion) :
    completing? m r env = none ∧ (advance m r env).env.vision = env.vision ∨
      ∃ t, completing? m r env = some t ∧
        (advance m r env).env = (await .completion m t.subject t.env).env := by
  unfold completing? advance
  rcases hs with hs | hs
  · rw [hs]
    dsimp only [Turn.env_andThen]
    -- it goes on with its end criteria just if it was dispatched
    split
    · exact .inr ⟨_, rfl, rfl⟩
    · obtain ⟨cs, henv, -⟩ := dispatch_opens m env hs
      refine .inl ⟨rfl, ?_⟩
      change (dispatch m r env).env.vision = _
      rw [henv]
      rfl
  · rw [hs]
    exact .inr ⟨_, rfl, rfl⟩

/-- **What comes before the look at the time** sends what it evaluates asks for. -/
theorem advance_posts (m : Moment) (env : Environment) (h : ¬ r.state.isTerminal) :
    ∃ sent, Posts m env r (assessment? m r env) sent ∧
      (advance m (r.counted m.delta) env).env.vision.submitted = env.vision.submitted ++ sent := by
  -- a segment past its entry looks at its end criteria, or does not come to them
  have hcompleting : r.state = .executing ∨ r.state = .awaitingCompletion →
      ∃ sent, Posts m env r ((look? m r env).map (Assessment.mk (r.ticks + 1) .completion)) sent ∧
        (advance m (r.counted m.delta) env).env.vision.submitted =
          env.vision.submitted ++ sent := by
    intro hs
    unfold look?
    rcases advance_completing (r := r.counted m.delta) m env hs with ⟨hnone, henv⟩ | ⟨t, ht, henv⟩
    · rw [hnone, henv]
      exact ⟨[], .nothing, (List.append_nil _).symm⟩
    · obtain ⟨ho, hl, hv⟩ := of_mem_completing? ht
      rw [ht, henv]
      exact exists_posts_await .completion ho hl hv
  cases hs : r.state with
  | pending =>
    have hadvance : advance m (r.counted m.delta) env = begin m (r.counted m.delta) env := by
      unfold advance
      rw [show (r.counted m.delta).state = .pending from hs]
    rw [hadvance]
    exact begin_posts m env hs
  | awaitingEntry =>
    have hadvance : advance m (r.counted m.delta) env = await .entry m (r.counted m.delta) env := by
      unfold advance
      rw [show (r.counted m.delta).state = .awaitingEntry from hs]
    unfold assessment?
    rw [hadvance, hs]
    exact exists_posts_await .entry rfl rfl rfl
  | executing | awaitingCompletion =>
    unfold assessment?
    rw [hs]
    exact hcompleting (by rw [hs]; decide)
  | completed | timedOut | failed | skipped => exact absurd (by rw [hs]; decide) h

/-- What is sent is what the evaluation posts, if there is one. -/
theorem Posts.eq {a : Option Assessment} {sent : List Request} (h : Posts m env r a sent) :
    sent = (a.map fun assessment => (⟨r, env, assessment⟩ : Inspection)).toList.flatMap
      (Inspection.posted m) := by
  cases h with
  | nothing => rfl
  | asking phase ho hl hv => exact (List.append_nil _).symm

/-- **A tick sends requests for what it evaluates**, and no others. -/
theorem submitted_tick (m : Moment) (r : SegmentRun) (env : Environment) :
    (r.tick m env).env.vision.submitted =
      env.vision.submitted ++ (r.inspection? m env).toList.flatMap (Inspection.posted m) := by
  unfold inspection?
  by_cases ht : r.state.isTerminal
  · have hnone : assessment? m r env = none :=
      Option.eq_none_iff_forall_not_mem.mpr fun a ha => (of_mem_assessment? ha).2 ht
    rw [tick_of_isTerminal m env ht, hnone]
    exact (List.append_nil _).symm
  · -- what follows the evaluations sends nothing
    obtain ⟨sent, hposts, hsubmitted⟩ := advance_posts m env ht
    unfold tick
    rw [if_neg ht, Turn.env_andThen, submitted_releaseIfOver, Turn.env_andThen,
      submitted_checkTimeout, hsubmitted, hposts.eq]

/-- **An evaluation goes by what there is when everything has been asked for.** -/
theorem sees_of_mem_inspection? {i : Inspection} (h : i ∈ r.inspection? m env) :
    i.run = r ∧ i.env = env ∧ i.assessment ∈ assessment? m r env ∧ i.Sees m := by
  obtain ⟨a, ha, rfl⟩ := Option.map_eq_some_iff.mp h
  refine ⟨rfl, rfl, ha, ?_⟩
  obtain ⟨sent, hposts, -⟩ := advance_posts m env (of_mem_assessment? ha).2
  rw [ha] at hposts
  cases hposts with
  -- the part of the tick that opened has left the coordinator and the criteria as they were
  | @asking phase r' env' ho hl hv =>
    refine ⟨?_, hl⟩
    change (prepareKeys m.snapshot env'.vision
      (wanted (r'.key phase) (r'.criteria phase))).1.reply = _
    rw [hv, wanted_of_origin ho]
    rfl

end SegmentRun

namespace Inspection

variable {m : Moment} {i : Inspection}

/-- **Who is asked for**: vision criteria of the list that lack a request, and the evaluation looks
at each of them unless a latch casts its shadow on it, or there is a fault that is not behind it. -/
theorem asked_or_passed_by (h : i.Sees m) {t : Coordinator × Key × VisionQuery}
    (ht : t ∈ i.served m) :
    t.1.Lacks t.2.1 ∧ ∃ place c, Criteria.lookup? i.criteria place = some c ∧
      query? c = some t.2.2 ∧ i.key.along place = t.2.1 ∧
        (t.2.1 ∈ i.consulted ∨ Criteria.Shadowed i.run.latched i.key i.criteria place ∨
          ∃ place' e, Criteria.FaultAt i.assessment.view i.key i.criteria place' e ∧
            ¬ place < place') := by
  have hasked := mem_asked_of_mem_served ht
  obtain ⟨place, c, hfind, hquery, hkey⟩ := mem_wanted_iff_lookup.mp (mem_of_mem_asked hasked)
  refine ⟨lacks_of_mem_asked hasked, place, c, hfind, hquery, hkey, ?_⟩
  -- not in the shadow of a latch, and every fault behind it: then it is looked at
  by_cases hshadow : Criteria.Shadowed i.run.latched i.key i.criteria place
  · exact .inr (.inl hshadow)
  by_cases hfaults :
      ∀ place' e, Criteria.FaultAt i.assessment.view i.key i.criteria place' e → place < place'
  · refine .inl (Criteria.mem_consultedAll_iff.mpr ⟨place, c, t.2.2, hfind, hquery,
      hkey, ?_, hfaults⟩)
    rw [h.latched]
    exact hshadow
  · simp only [not_forall] at hfaults
    obtain ⟨place', e, hfault, hnot⟩ := hfaults
    exact .inr (.inr ⟨place', e, hfault, hnot⟩)

/-- **Whatever the evaluation asks about has a request**, if requests can be sent at all. -/
theorem has_request_of_consulted (hs : i.env.vision.service.isSome)
    (hp : m.snapshot.screenshot.isSome) {key : Key} (h : key ∈ i.consulted) :
    (i.prepared m).index? key ≠ none := by
  obtain ⟨service, hs⟩ := Option.isSome_iff_exists.mp hs
  obtain ⟨screenshot, hp⟩ := Option.isSome_iff_exists.mp hp
  -- what the evaluation asks about is a vision criteria of the list, and so it is wanted
  obtain ⟨place, c, query, hfind, hquery, hkey, -⟩ := Criteria.mem_consultedAll_iff.mp h
  have hmem : (key, query) ∈ i.wanted := mem_wanted_iff_lookup.mpr ⟨place, c, hfind, hquery, hkey⟩
  exact index?_prepareKeys_ne_none hp i.wanted hs (.inl ⟨query, hmem⟩)

end Inspection

end Playtest
