import Playtest.Proofs.Playback.Outstanding
import Playtest.Proofs.Segment.Requests

/-!
# What a run asks of vision

All requests of a run are sent by its ticks, each just before the evaluation that it is meant for.
The evaluations of a tick are `PlaybackRun.inspections`, in the order in which the lists come to
their turn, and the main result, `PlaybackRun.asks_for_what_is_evaluated`, is that a tick sends the
requests of its evaluations and no others.

What is asked for is more than what is looked at. Vision criteria are asked for wherever they stand,
and so also below a transient criteria that was latched before, and behind a criteria that fails the
segment (`PlaybackRun.asks_for_more_than_it_looks_at`). There is no third case.

That a tick sends what it evaluates asks for is carried from segments to lists and from there to
rounds. Breaking anything off sends nothing.
-/

namespace Playtest

open Scene Vision Vision.Coordinator

variable {m : Moment} {env env' : Environment} {i : Inspection}

namespace ListRun

variable {l l' : ListRun} {e : ListEvent}

/-- What a tick of the list evaluates, in its place. -/
def inspection? (m : Moment) (l : ListRun) (env : Environment) : Option Inspection :=
  l.ahead.head?.bind fun s => s.inspection? m env

/-- A tick of a list sends what its current segment sends. -/
theorem Plays.submitted_eq (h : Plays m l env l' e env') :
    env'.vision.submitted =
      env.vision.submitted ++ (l.inspection? m env).toList.flatMap (Inspection.posted m) := by
  unfold inspection?
  cases ha : l.ahead with
  | nil =>
    rw [(h.of_empty ha).2.2]
    exact (List.append_nil _).symm
  | cons s rest =>
    rw [(h.segments_eq ha).1]
    exact s.submitted_tick m env

/-- What sends nothing for each segment sends nothing for all of them. -/
theorem submitted_eachSegment {f : SegmentRun → Environment → Turn SegmentRun}
    (hf : ∀ s env, (f s env).env.vision.submitted = env.vision.submitted) (ss : List SegmentRun)
    (env : Environment) :
    (eachSegment f ss env).env.vision.submitted = env.vision.submitted := by
  induction ss generalizing env with
  | nil => rfl
  | cons s rest ih => exact (ih (f s env).env).trans (hf s env)

theorem submitted_abort (reason : String) (l : ListRun) (env : Environment) :
    (l.abort reason env).env.vision.submitted = env.vision.submitted := by
  have each := submitted_eachSegment (SegmentRun.submitted_abort reason)
  exact (each l.ahead _).trans (each l.played env)

end ListRun

namespace PlaybackRun

variable {p : Playlist} {c : Config} {env₀ : Environment} {b : Beat} {r : PlaybackRun}
  {ls : List ListRun} {t : ListTicks}

/-- What a round of the lists **evaluates**, one after another. -/
def inspectionsOf (m : Moment) : List ListRun → Environment → List Inspection
  | [], _ => []
  | l :: rest, env =>
      if l.isFinished then inspectionsOf m rest env
      else
        (l.inspection? m env).toList ++
          match (l.tick m env).subject.2 with
          | .fatal _ => []
          | .running | .keyFrame | .finished =>
              if l.isParallel then inspectionsOf m rest (l.tick m env).env else []

/-- **What a tick evaluates**, in the order in which it does. -/
def inspections (b : Beat) (r : PlaybackRun) (env : Environment) : List Inspection :=
  if r.isFinished then []
  else
    match (r.begun b).obstacle? with
    | some _ => []
    | none => inspectionsOf (r.moment b env) r.lists (r.opened b env)

/-! ### What is sent -/

/-- **A round sends what it evaluates asks for.** -/
theorem Round.submitted_eq (h : Round m ls env t env') :
    env'.vision.submitted = env.vision.submitted ++
      (inspectionsOf m ls env).flatMap (Inspection.posted m) := by
  induction h with
  | nil => exact (List.append_nil _).symm
  | finished hf _ ih =>
    unfold inspectionsOf
    rw [if_pos hf]
    exact ih
  -- nothing behind a list that is fatal is evaluated
  | fatal hf he =>
    unfold inspectionsOf
    rw [if_neg hf, he, List.append_nil]
    exact (ListRun.tick_plays hf).submitted_eq
  | @parallel l rest env _ _ hf he hp _ ih =>
    have hplays : l.Plays m env _ _ _ := ListRun.tick_plays hf
    unfold inspectionsOf
    rw [if_neg hf, if_pos hp, List.flatMap_append, ← List.append_assoc, ← hplays.submitted_eq]
    split
    · next hr => exact absurd hr (he _)
    all_goals exact ih
  | @last l rest env hf he hp =>
    have hplays : l.Plays m env _ _ _ := ListRun.tick_plays hf
    unfold inspectionsOf
    rw [if_neg hf, if_neg hp, List.flatMap_append, ← List.append_assoc, ← hplays.submitted_eq]
    split
    · next hr => exact absurd hr (he _)
    all_goals exact (List.append_nil _).symm

/-- Breaking lists off sends nothing, either. -/
theorem submitted_abortLists (reason : String) (ls : List ListRun) (env : Environment) :
    (abortLists reason ls env).env.vision.submitted = env.vision.submitted := by
  induction ls generalizing env with
  | nil => rfl
  | cons l rest ih => exact (ih (l.abort reason env).env).trans (l.submitted_abort reason env)

/-- Breaking a run off sends nothing. -/
theorem submitted_breakOff (reason : String) (r : PlaybackRun) (env : Environment) :
    (breakOff reason r env).env.vision.submitted = env.vision.submitted :=
  submitted_abortLists reason r.lists env

/-- Neither does an attempt to end the run. -/
theorem submitted_abort (reason : String) (r : PlaybackRun) (env : Environment) :
    (r.abort reason env).env.vision.submitted = env.vision.submitted := by
  unfold abort
  split
  · rfl
  · exact submitted_breakOff reason r env

/-- The first tick abandons what others have sent, and does not forget that it was sent. -/
theorem submitted_opened (b : Beat) (r : PlaybackRun) (env : Environment) :
    (r.opened b env).vision.submitted = env.vision.submitted := by
  change (r.prepared env).vision.submitted = _
  unfold prepared
  split <;> rfl

/-- **A tick sends what it evaluates asks for.** -/
theorem submitted_tick (b : Beat) (r : PlaybackRun) (env : Environment) :
    (r.tick b env).env.vision.submitted =
      env.vision.submitted ++
        (r.inspections b env).flatMap (Inspection.posted (r.moment b env)) := by
  unfold inspections
  cases hr : r.result with
  | some result =>
    rw [tick_of_ended hr, if_pos (isFinished_of_ended hr)]
    exact (List.append_nil _).symm
  | none =>
    rw [if_neg (not_isFinished hr)]
    have ht := tick_eq b env hr
    cases ho : (r.begun b).obstacle? with
    | some reason =>
      rw [ho] at ht
      rw [ht.2, submitted_breakOff, submitted_opened]
      exact (List.append_nil _).symm
    -- a round is played, and breaking off behind it sends nothing
    | none =>
      have hround : (r.round b env).env.vision.submitted = env.vision.submitted ++
          (inspectionsOf (r.moment b env) r.lists (r.opened b env)).flatMap
            (Inspection.posted (r.moment b env)) := by
        rw [← submitted_opened b r env]
        exact (tickLists_round (r.moment b env) r.lists (r.opened b env)).submitted_eq
      cases hf : (r.round b env).subject.fatal with
      | some reason =>
        have ht := tick_of_no_obstacle env hr ho
        rw [hf] at ht
        rw [ht.2]
        exact (submitted_breakOff reason (r.played b env) (r.round b env).env).trans hround
      | none =>
        rw [(tick_of_not_fatal hr ho hf).1]
        exact hround

/-! ### What is evaluated -/

/-- What a round evaluates is assessed by its segments, of the moment of the tick. -/
theorem mem_inspectionsOf (h : i ∈ inspectionsOf m ls env) :
    i.run ∈ ls.flatMap ListRun.segments ∧ i.assessment ∈ SegmentRun.assessment? m i.run i.env ∧
      i.Sees m := by
  induction ls generalizing env with
  | nil => cases h
  | cons l rest ih =>
    have hbehind : ∀ {env : Environment}, i ∈ inspectionsOf m rest env →
        i.run ∈ (l :: rest).flatMap ListRun.segments ∧
          i.assessment ∈ SegmentRun.assessment? m i.run i.env ∧ i.Sees m := fun h =>
      ⟨List.mem_append_right _ (ih h).1, (ih h).2⟩
    unfold inspectionsOf at h
    split at h
    -- a list that has finished is passed over
    · exact hbehind h
    rcases List.mem_append.mp h with h | h
    · -- its current segment evaluates
      obtain ⟨s, hs, hi⟩ := Option.bind_eq_some_iff.mp (Option.mem_toList.mp h)
      obtain ⟨hrun, henv, ha, hsees⟩ := SegmentRun.sees_of_mem_inspection? hi
      refine ⟨List.mem_append_left _ (List.mem_append_right _ ?_), ?_, hsees⟩
      · rw [hrun]
        exact List.mem_of_mem_head? hs
      · rw [hrun, henv]
        exact ha
    · -- and so do the lists behind it, if it lets them pass
      split at h
      · cases h
      all_goals
        split at h
        · exact hbehind h
        · cases h

/-- **What a tick evaluates** is assessed by segments of the run. -/
theorem mem_inspections (h : i ∈ r.inspections b env) :
    i.run ∈ r.segments ∧ i.assessment ∈ SegmentRun.assessment? (r.moment b env) i.run i.env ∧
      i.Sees (r.moment b env) := by
  unfold inspections at h
  split at h
  · cases h
  split at h
  · cases h
  · exact mem_inspectionsOf h

/-- **A tick asks for what it evaluates.** The requests that a tick sends are those of its
evaluations, one after another, and each evaluation is one that a segment of the run makes of the
criteria of its phase. Aborting a run sends nothing. Of each evaluation it is true that

* requests are sent for vision criteria of the list that lack one. Latches do not matter for that:
  the criteria may be, or stand below, a transient criteria that was latched when the tick began. If
  it does not, then the evaluation looks at it, unless it ends with an error before it gets there,
* whatever the evaluation looks at has a request, if there is a service and a screenshot. -/
theorem asks_for_what_is_evaluated (b : Beat) (r : PlaybackRun) (env : Environment) :
    let m := r.moment b env
    (r.tick b env).env.vision.submitted =
        env.vision.submitted ++ (r.inspections b env).flatMap (Inspection.posted m) ∧
      (∀ reason, (r.abort reason env).env.vision.submitted = env.vision.submitted) ∧
      ∀ i ∈ r.inspections b env,
        i.run ∈ r.segments ∧ i.assessment ∈ SegmentRun.assessment? m i.run i.env ∧ i.Sees m ∧
          (∀ t ∈ i.served m, t.1.Lacks t.2.1 ∧
            ∃ place c, Criteria.lookup? i.criteria place = some c ∧ query? c = some t.2.2 ∧
              i.key.along place = t.2.1 ∧
                (t.2.1 ∈ i.consulted ∨ Criteria.Shadowed i.run.latched i.key i.criteria place ∨
                  ∃ place' e, Criteria.FaultAt i.assessment.view i.key i.criteria place' e ∧
                    ¬ place < place')) ∧
          (i.env.vision.service.isSome → m.snapshot.screenshot.isSome →
            ∀ key ∈ i.consulted, (i.prepared m).index? key ≠ none) := by
  refine ⟨submitted_tick b r env, fun reason => submitted_abort reason r env, fun i hi => ?_⟩
  obtain ⟨hrun, ha, hsees⟩ := mem_inspections hi
  exact ⟨hrun, ha, hsees, fun t ht => i.asked_or_passed_by hsees ht,
    fun hs hp key hkey => i.has_request_of_consulted hs hp hkey⟩

/-- The first second of the lookout has one evaluation, which looks at its one criteria, and asks
for it. -/
theorem lookout_asks_for_what_it_evaluates :
    let begun := PlaybackRun.of lookout .default "a-lookout" 0
    let m := begun.moment dark leftBehind
    ∃ i ∈ begun.inspections dark leftBehind, i.run ∈ begun.segments ∧ i.consulted = ["1/entry.0"] ∧
      (i.prepared m).index? "1/entry.0" ≠ none ∧
        (begun.tick dark leftBehind).env.vision.submitted =
          leftBehind.vision.submitted ++ i.posted m := by
  intro begun m
  obtain ⟨hsubmitted, -, hevery⟩ := asks_for_what_is_evaluated dark begun leftBehind
  have hconsulted : (begun.inspections dark leftBehind).map Inspection.consulted =
      [["1/entry.0"]] := by decide +kernel
  have hservice : ∀ i ∈ begun.inspections dark leftBehind, i.env.vision.service.isSome = true := by
    decide +kernel
  have hscreenshot : m.snapshot.screenshot.isSome = true := by decide +kernel
  obtain ⟨i, hi, hlook⟩ := List.map_eq_singleton_iff.mp hconsulted
  have hmem : i ∈ begun.inspections dark leftBehind := by
    rw [hi]
    exact List.mem_singleton.mpr rfl
  -- the one evaluation of the tick is the one that looks at the text
  obtain ⟨hrun, -, -, -, hrequest⟩ := hevery i hmem
  refine ⟨i, hmem, hrun, hlook, ?_, ?_⟩
  · exact hrequest (hservice i hmem) hscreenshot "1/entry.0"
      (by rw [hlook]; exact List.mem_singleton.mpr rfl)
  · rw [hsubmitted, hi, List.flatMap_singleton]

/-! ### More than is looked at -/

/-- A service that finds nothing, and says so at once. -/
def unseeing : Service := fun _ request => ⟨[(request.index, .notMatched)], none⟩

/-- A text that is looked for. -/
def play : Criteria := .of (.vision .text ⟨some "Play", none, none, 0.5⟩)

/-- A playlist of one segment that waits for some criteria. -/
def waitingFor (cs : List Criteria) : Playlist where
  name := "wait"
  lists := [⟨"main", "", 1, [{ Segment.ofName "wait" with endCriteria := cs }]⟩]

/-- The playlist after some seconds of darkness, with a service that finds nothing. -/
def waited (cs : List Criteria) : Nat → PlaybackRun × Environment
  | 0 => (PlaybackRun.of (waitingFor cs) .default "a-wait" 0,
      { Environment.of .empty with vision := .of (some unseeing) })
  | n + 1 =>
      let (r, env) := waited cs n
      ((r.tick dark env).subject, (r.tick dark env).env)

/-- The wait is a run with its environment. -/
theorem waited_hosted (cs : List Criteria) (n : Nat) :
    Hosted (waitingFor cs) .default (waited cs 0).2 (waited cs n).1 (waited cs n).2 := by
  induction n with
  | zero => exact .fresh (.of "a-wait" 0)
  | succ n ih => exact ih.tick dark

/-- Any one of a void criteria and a text, once and for all, and an entity that never comes. -/
def settled : List Criteria :=
  [.group 1 true .any [.void, play], .of (.path false ⟨"Never", .nonZero, 0, 0, 0⟩)]

/-- A predicate that nobody has registered, and a text. -/
def broken : List Criteria := [.of (.custom "missing" .null), play]

/-- What is evaluated on the next second: the key of the list, what is asked for and what is looked
at. -/
def askedAndSeen (cs : List Criteria) (n : Nat) : List (Key × List Key × List Key) :=
  let (r, env) := waited cs n
  (r.inspections dark env).map fun i =>
    (i.key, (i.served (r.moment dark env)).map (·.2.1), i.consulted)

/-- What is asked for and looked at is that of one evaluation. -/
theorem exists_of_askedAndSeen {cs : List Criteria} {n : Nat} {key k : Key} {seen : List Key}
    (h : askedAndSeen cs n = [(key, [k], seen)]) :
    ∃ i ∈ (waited cs n).1.inspections dark (waited cs n).2, i.key = key ∧ i.consulted = seen ∧
      ∃ t ∈ i.served ((waited cs n).1.moment dark (waited cs n).2), t.2.1 = k := by
  obtain ⟨i, hi, heq⟩ := List.map_eq_singleton_iff.mp h
  obtain ⟨hkey, hrest⟩ := Prod.mk.inj heq
  obtain ⟨hserved, hseen⟩ := Prod.mk.inj hrest
  obtain ⟨t, ht, hk⟩ := List.map_eq_singleton_iff.mp hserved
  refine ⟨i, ?_, hkey, hseen, t, ?_, hk⟩
  · rw [hi]
    exact List.mem_singleton.mpr rfl
  · rw [ht]
    exact List.mem_singleton.mpr rfl

/-- **A run asks for more than it looks at.** A vision criteria may be asked for that an evaluation
does not look at although no latch casts a shadow on it, because a criteria in front of it is
broken. And one may be asked for again that stands below a transient criteria which was latched on
an earlier tick. -/
theorem asks_for_more_than_it_looks_at :
    (¬ ∀ (p : Playlist) (c : Config) (env₀ : Environment) (r : PlaybackRun) (env : Environment),
      Hosted p c env₀ r env →
        ∀ b, ∀ i ∈ r.inspections b env, ∀ t ∈ i.served (r.moment b env),
          (∀ place, i.key.along place = t.2.1 →
            ¬ Criteria.Shadowed i.run.latched i.key i.criteria place) →
            t.2.1 ∈ i.consulted) ∧
      ¬ ∀ (p : Playlist) (c : Config) (env₀ : Environment) (r : PlaybackRun) (env : Environment),
        Hosted p c env₀ r env →
        ∀ b, ∀ i ∈ r.inspections b env, ∀ t ∈ i.served (r.moment b env),
          ∀ place, i.key.along place = t.2.1 →
            ¬ Criteria.Shadowed i.run.latched i.key i.criteria place := by
  constructor
  · -- a broken criteria in front of the text keeps the evaluation from looking at it
    intro h
    have hasked : askedAndSeen broken 1 = [("1/end", ["1/end.1"], [])] := by decide +kernel
    obtain ⟨i, hi, -, hseen, t, ht, -⟩ := exists_of_askedAndSeen hasked
    -- nothing was latched yet
    have hlatched : ∀ s ∈ (waited broken 1).1.segments, s.latched = [] := by decide +kernel
    have hmem := h _ _ _ _ _ (waited_hosted broken 1) dark i hi t ht fun place _ => by
      rintro ⟨above, c, -, -, -, hl⟩
      rw [hlatched i.run (mem_inspections hi).1] at hl
      exact absurd hl List.not_mem_nil
    rw [hseen] at hmem
    exact absurd hmem List.not_mem_nil
  · -- a group that was latched keeps it from looking at the text, and yet it is asked for
    intro h
    have hasked : askedAndSeen settled 2 = [("1/end", ["1/end.0.1"], [])] := by decide +kernel
    obtain ⟨i, hi, hkey, -, t, ht, hk⟩ := exists_of_askedAndSeen hasked
    have hlatched : ∀ s ∈ (waited settled 2).1.segments, "1/end.0" ∈ s.latched := by decide +kernel
    have hcriteria : ((waited settled 2).1.inspections dark (waited settled 2).2).map
        Inspection.criteria = [settled] := by rfl
    have hcs : i.criteria = settled := by
      have hmem := List.mem_map_of_mem (f := Inspection.criteria) hi
      rw [hcriteria] at hmem
      exact List.mem_singleton.mp hmem
    have hplace : i.key.along [0, 1] = t.2.1 := by
      rw [hkey, hk]
      decide +kernel
    refine h _ _ _ _ _ (waited_hosted settled 2) dark i hi t ht [0, 1] hplace ?_
    -- the group in front of the text was met, and is passed over from now on
    refine ⟨[0], .group 1 true .any [.void, play], ⟨[1], rfl⟩, ?_, rfl, ?_⟩
    · rw [hcs]
      rfl
    · have hgroup : i.key.along [0] = "1/end.0" := by
        rw [hkey]
        decide +kernel
      rw [hgroup]
      exact hlatched i.run (mem_inspections hi).1

end PlaybackRun

end Playtest
