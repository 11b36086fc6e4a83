import Playtest.Proofs.Criteria.Readings
import Playtest.Proofs.Segment.Versions

/-!
# Timeouts of validations in a segment

A segment that goes on because a wait for validations ran out has that put down
(`validationsTimedOut`), and does not pass. The main result,
`SegmentRun.timeouts_count_where_decisive`, is that it is put down just if on one of the two
evaluations that let the segment go on, that of the entry criteria or that of the end criteria, the
criteria would not have held without the waits that had run out.

`SegmentRun.Assessed` is a run with all its evaluations, and `SegmentRun.Weighed` the invariant:
whatever let the segment go on is one of them, and the flag says whether it was decisive. The step
is `SegmentRun.tick_weighs`. Only an evaluation that lets the segment go on can touch the flag,
because criteria that come to be resolved by a timeout never leave a segment waiting.
-/

namespace Playtest

/-- One **evaluation** of the criteria of a phase: the tick, the phase, and what they were evaluated
against. -/
structure Assessment where
  tick : Nat
  phase : Phase
  view : View

/-- A state that lies behind no phase is none that a segment goes on to. -/
theorem Phase.next_ne {s : SegmentState} (hs : s ≠ .executing) (hs' : s ≠ .completed)
    (phase : Phase) : s ≠ phase.next := by
  cases phase with
  | entry => exact hs
  | completion => exact hs'

namespace SegmentRun

variable {m : Moment} {env env' : Environment} {r r' : SegmentRun} {cs : List Call}
  {as : List Assessment} {phase : Phase} {t : Nat}

/-! ### Evaluations -/

/-- **What a tick evaluates**, if it evaluates anything. A segment that has just begun looks at its
entry criteria unless it is too new, and one that waits for its end criteria looks at these. -/
def assessment? (m : Moment) (r : SegmentRun) (env : Environment) : Option Assessment :=
  match r.state with
  | .pending =>
      if Version.current < r.segment.effectiveVersion then none
      else some ⟨r.ticks + 1, .entry,
        sighting .entry m ((r.counted m.delta).entered .awaitingEntry) env⟩
  | .awaitingEntry => some ⟨r.ticks + 1, .entry, sighting .entry m (r.counted m.delta) env⟩
  | .executing | .awaitingCompletion =>
    (look? m r env).map (Assessment.mk (r.ticks + 1) .completion)
  | .completed | .timedOut | .failed | .skipped => none

/-- A run with **all its evaluations**, after any calls in any environments. -/
inductive Assessed : SegmentRun → List Assessment → Prop
  | of (s : Segment) (list : String) (number : Nat) (isRequired : Bool) :
      Assessed (.of s list number isRequired) []
  | tick (m : Moment) (env : Environment) {r : SegmentRun} {as : List Assessment}
      (h : Assessed r as) :
      Assessed (r.tick m env).subject (as ++ (assessment? m r env).toList)
  | abort (reason : String) (env : Environment) {r : SegmentRun} {as : List Assessment}
      (h : Assessed r as) :
      Assessed (r.abort reason env).subject as
  | skip (env : Environment) {r : SegmentRun} {as : List Assessment} (h : Assessed r as) :
      Assessed (r.skip env).subject as

/-- A run with its evaluations can be reached. -/
theorem Assessed.reachable (h : Assessed r as) : Reachable r := by
  induction h with
  | of s list number isRequired => exact .of s list number isRequired
  | tick m env _ ih => exact ih.tick m env
  | abort reason env _ ih => exact ih.abort reason env
  | skip env _ ih => exact ih.skip env

/-- An evaluation on which the waits that had run out **decided**. -/
def decides (r : SegmentRun) (a : Assessment) : Bool :=
  Criteria.timeoutsDecide a.view (r.key a.phase) (r.criteria a.phase) (r.join a.phase)

/-- A segment **goes on** from a phase on a tick. -/
def GoesOn (r : SegmentRun) (phase : Phase) (tick : Nat) : Prop := (phase.next, tick) ∈ r.history

/-- What an evaluation decided is a matter of what the run was made of. -/
theorem decides_of_origin (h : r'.origin = r.origin) (a : Assessment) :
    r'.decides a = r.decides a := by
  unfold decides
  rw [key_eq_of_origin h, criteria_eq_of_origin h, join_eq_of_origin h]

/-! ### Ticks -/

/-- What a call **makes of the flag** and of the ticks on which a segment goes on, given the
evaluation of the call. -/
inductive Weighs (r r' : SegmentRun) : Option Assessment → Prop
  | stays (a : Option Assessment) (hg : ∀ phase t, r'.GoesOn phase t ↔ r.GoesOn phase t)
      (hv : r'.validationsTimedOut = r.validationsTimedOut) : Weighs r r' a
  | moves (a : Assessment) (hg : ∀ phase t, r'.GoesOn phase t ↔
      r.GoesOn phase t ∨ phase = a.phase ∧ t = a.tick)
      (hv : r'.validationsTimedOut = (r.validationsTimedOut || r.decides a)) : Weighs r r' (some a)

/-- A segment goes on by entering the state behind a phase, and by entering no other. -/
theorem goesOn_entered {s : SegmentState} (hs : ∀ phase : Phase, s ≠ phase.next) (phase : Phase)
    (t : Nat) :
    (r.entered s).GoesOn phase t ↔ r.GoesOn phase t := by
  unfold GoesOn entered
  rw [List.mem_append, List.mem_singleton, Prod.mk.injEq]
  exact or_iff_left fun h => hs phase h.1.symm

/-- Entering the state behind a phase, the segment goes on from that phase on this tick. -/
theorem goesOn_entered_next (p phase : Phase) (t : Nat) :
    (r.entered p.next).GoesOn phase t ↔ r.GoesOn phase t ∨ phase = p ∧ t = r.ticks := by
  have hnext : phase.next = p.next ↔ phase = p := by cases phase <;> cases p <;> decide
  unfold GoesOn entered
  rw [List.mem_append, List.mem_singleton, Prod.mk.injEq, hnext]

/-- No way in which a tick opens lets the segment go on from a phase. -/
theorem Opens.goesOn_iff (h : Opens m env r cs r') (phase : Phase) (t : Nat) :
    r'.GoesOn phase t ↔ r.GoesOn phase t := by
  cases h with
  | wait | missing | idle | poll => exact Iff.rfl
  | begin | pass | astray | unable | refuse | start =>
    exact goesOn_entered (Phase.next_ne SegmentState.noConfusion SegmentState.noConfusion) phase t

/-- No way in which a tick opens touches the flag. -/
theorem Opens.validationsTimedOut_eq (h : Opens m env r cs r') :
    r'.validationsTimedOut = r.validationsTimedOut := by
  cases h <;> rfl

/-- The look at the time does not let the segment go on from a phase, either. -/
theorem Closes.goesOn_iff (h : Closes env r cs r') (phase : Phase) (t : Nat) :
    r'.GoesOn phase t ↔ r.GoesOn phase t := by
  cases h with
  | inTime => exact Iff.rfl
  | late =>
    exact goesOn_entered (Phase.next_ne SegmentState.noConfusion SegmentState.noConfusion) phase t

/-- Neither does it touch the flag. -/
theorem Closes.validationsTimedOut_eq (h : Closes env r cs r') :
    r'.validationsTimedOut = r.validationsTimedOut := by
  cases h <;> rfl

/-- **A look at criteria** leaves the flag as it was, or lets the segment go on. -/
theorem Inspects.weighs (h : Inspects m env r r' env') :
    (∀ a, Weighs r r' a) ∨
      ∃ phase : Phase, r.state = phase.state ∧ r'.state = phase.next ∧
        Weighs r r' (some ⟨r.ticks, phase, sighting phase m r env⟩) := by
  -- failing and timing out lead to states that lie behind no phase
  have hfailed : ∀ reason (a : Option Assessment), Weighs r (r.failed reason) a := fun reason a =>
    .stays a (goesOn_entered (Phase.next_ne SegmentState.noConfusion SegmentState.noConfusion)) rfl
  cases h with
  | rest => exact .inl fun a => .stays a (fun _ _ => Iff.rfl) rfl
  | tooNew _ _ reason => exact .inl (hfailed reason)
  | fail => exact .inl (hfailed _)
  | @wait phase hs status he hh =>
    -- criteria that were resolved by a timeout would not have left the segment waiting
    have hstatus : (status == .resolvedByTimeout) = false := by
      cases status with
      | met | unmet => rfl
      | resolvedByTimeout => exact absurd rfl hh
    refine .inl fun a => .stays a (fun _ _ => Iff.rfl) ?_
    show (r.validationsTimedOut || status == .resolvedByTimeout) = _
    rw [hstatus, Bool.or_false]
  -- what lets the segment go on is put down as it was decided: resolved by a timeout or not
  | @hold phase hs status he hh =>
    refine .inr ⟨phase, hs, rfl, .moves _ (goesOn_entered_next phase) ?_⟩
    have hdecides : (status == .resolvedByTimeout) =
        r.decides ⟨r.ticks, phase, sighting phase m r env⟩ :=
      Bool.eq_iff_iff.mpr (beq_iff_eq.trans (Criteria.status_iff he).2.2)
    show (r.validationsTimedOut || status == .resolvedByTimeout) = _
    rw [hdecides]

/-- What a tick evaluates is what it looks at, unless the segment is too new. -/
theorem assessment?_eq (ho : Opens m env (r.counted m.delta) cs r') (hs : r'.state = phase.state)
    (hv : r.state = .pending → ¬ Version.current < r.segment.effectiveVersion)
    (hl : look? m r env =
      if r'.state = .awaitingCompletion then some (sighting .completion m r' (env.calling cs))
        else none) :
    assessment? m r env = some ⟨r.ticks + 1, phase, sighting phase m r' (env.calling cs)⟩ := by
  -- the end criteria are looked at in two states, both times as `look?` says
  have hcompletion : r'.state = .awaitingCompletion →
      r.state = .executing ∨ r.state = .awaitingCompletion →
      assessment? m r env = some ⟨r.ticks + 1, phase, sighting phase m r' (env.calling cs)⟩ := by
    intro hs' hr
    obtain rfl : phase = .completion := Phase.eq_of_state_eq (hs.symm.trans hs')
    rw [if_pos hs'] at hl
    unfold assessment?
    rcases hr with hr | hr
    all_goals
      rw [hr, hl]
      rfl
  -- the entry criteria are looked at in one
  have hentry : ∀ {s : SegmentState}, r'.state = s → s = .awaitingEntry → phase = .entry := by
    rintro s hr rfl
    exact Phase.eq_of_state_eq (hs.symm.trans hr)
  -- in any other state there is no phase to look at
  have hno : ∀ {s : SegmentState}, r'.state = s → (∀ p : Phase, s ≠ p.state) →
      assessment? m r env = some ⟨r.ticks + 1, phase, sighting phase m r' (env.calling cs)⟩ :=
    fun hr hp => absurd (hr.symm.trans hs) (hp phase)
  have hfailed : ∀ p : Phase, SegmentState.failed ≠ p.state := by rintro (_ | _) <;> decide
  cases ho with
  | begin hr =>
    obtain rfl := hentry rfl rfl
    unfold assessment?
    rw [show r.state = .pending from hr, env.calling_nil]
    exact if_neg (hv hr)
  | wait hr =>
    obtain rfl := hentry hr rfl
    unfold assessment?
    rw [show r.state = .awaitingEntry from hr, env.calling_nil]
  | pass hr | astray hr => exact hcompletion rfl (.inl hr)
  | start aim => exact hcompletion rfl (.inl aim.state)
  | idle hr | poll hr => exact hcompletion hr (.inr hr)
  | missing hr => exact hno hr (by rintro (_ | _) <;> decide)
  | unable | refuse => exact hno rfl hfailed

/-- Only a segment that has not ended is evaluated, and on the tick that comes. -/
theorem of_mem_assessment? {a : Assessment} (h : a ∈ assessment? m r env) :
    a.tick = r.ticks + 1 ∧ ¬ r.state.isTerminal := by
  unfold assessment? at h
  split at h
  · next hs =>
    split at h
    · -- a segment that is too new is refused before anything is evaluated
      cases h
    · cases h
      exact ⟨rfl, by rw [hs]; decide⟩
  · next hs =>
    cases h
    exact ⟨rfl, by rw [hs]; decide⟩
  · next hs =>
    obtain ⟨view, -, rfl⟩ := Option.map_eq_some_iff.mp h
    exact ⟨rfl, by rw [hs]; decide⟩
  · next hs =>
    obtain ⟨view, -, rfl⟩ := Option.map_eq_some_iff.mp h
    exact ⟨rfl, by rw [hs]; decide⟩
  all_goals cases h

/-- **A tick** leaves the flag as it was, or lets the segment go on by its evaluation. -/
theorem tick_weighs (h : Reachable r) (m : Moment) (env : Environment) :
    Weighs r (r.tick m env).subject (assessment? m r env) := by
  by_cases ht : r.state.isTerminal
  · rw [tick_of_isTerminal m env ht]
    exact .stays _ (fun _ _ => Iff.rfl) rfl
  by_cases hv : r.state = .pending ∧ Version.current < r.segment.effectiveVersion
  · -- a segment that is too new fails before it looks at anything
    have hs : ¬ r.segment.Supported := fun hs => r.segment.not_current_lt_iff.mpr hs hv.2
    have hhistory : r.history = [] := by rw [h.sound.pending hv.1]; rfl
    rw [tick_of_unsupported h hv.1 hs]
    refine .stays _ (fun phase t => ?_) rfl
    unfold GoesOn refusal
    rw [hhistory]
    cases phase <;> simp [Phase.next]
  · obtain ⟨cs, ds, env₂, r₁, r₂, ho, hi, hc, -, hl⟩ := tick_looks m env ht
    have hticks : r₁.ticks = r.ticks + 1 := ho.onward.1.ticks
    have horigin : r₁.origin = r.origin := ho.onward.1.origin
    -- neither opening nor closing makes a difference, so what counts is the look in between
    have hgoes : ∀ p t, (r.tick m env).subject.GoesOn p t ↔ r₂.GoesOn p t := hc.goesOn_iff
    have hopened : ∀ p t, r₁.GoesOn p t ↔ r.GoesOn p t := ho.goesOn_iff
    have hflag : r₁.validationsTimedOut = r.validationsTimedOut := ho.validationsTimedOut_eq
    have hwhole : ∀ a, Weighs r₁ r₂ a → Weighs r (r.tick m env).subject a := by
      rintro _ (⟨_, hg, hv⟩ | ⟨a, hg, hv⟩)
      · exact .stays _ (fun p t => (hgoes p t).trans ((hg p t).trans (hopened p t)))
          (by rw [hc.validationsTimedOut_eq, hv, hflag])
      · refine .moves a (fun p t =>
          (hgoes p t).trans ((hg p t).trans (or_congr_left (hopened p t)))) ?_
        rw [hc.validationsTimedOut_eq, hv, hflag, decides_of_origin horigin]
    obtain hstays | ⟨phase, hs, -, hmoves⟩ := hi.weighs
    · exact hwhole _ (hstays _)
    · rw [assessment?_eq ho hs (fun hp hlt => hv ⟨hp, hlt⟩) hl, ← hticks]
      exact hwhole _ hmoves

/-! ### Runs -/

/-- **The invariant** of a run with its evaluations: the flag is up just if one that let the segment
go on was decisive, and whatever let it go on is among them, each on a tick of its own. -/
structure Weighed (r : SegmentRun) (as : List Assessment) : Prop where
  flag : r.validationsTimedOut = true ↔ ∃ a ∈ as, r.GoesOn a.phase a.tick ∧ r.decides a = true
  moves : ∀ phase t, r.GoesOn phase t → ∃ a ∈ as, a.phase = phase ∧ a.tick = t
  past : ∀ a ∈ as, a.tick ≤ r.ticks
  ordered : as.Pairwise fun a b => a.tick < b.tick

/-- A run that was just made has no evaluations, and the flag is down. -/
theorem Weighed.of (s : Segment) (list : String) (number : Nat) (isRequired : Bool) :
    Weighed (.of s list number isRequired) [] where
  flag := iff_of_false Bool.false_ne_true fun ⟨_, ha, _⟩ => nomatch ha
  moves := fun _ _ hg => nomatch hg
  past := fun _ ha => nomatch ha
  ordered := .nil

/-- **A call keeps the invariant**, with its evaluation. -/
theorem Weighed.call {a : Option Assessment} (h : Weighed r as) (hw : Weighs r r' a)
    (ho : r'.origin = r.origin) (ht : r.ticks ≤ r'.ticks)
    (ha : ∀ x ∈ a, x.tick = r.ticks + 1 ∧ r'.ticks = r.ticks + 1) :
    Weighed r' (as ++ a.toList) := by
  have hdecides := decides_of_origin ho
  -- the tick of the new evaluation is none on which the segment has gone on before
  have hnew : ∀ x ∈ a, ∀ phase, ¬ r.GoesOn phase x.tick := by
    intro x hx phase hg
    obtain ⟨y, hy, -, hty⟩ := h.moves phase x.tick hg
    have hle := h.past y hy
    have htx := (ha x hx).1
    omega
  have hmem : ∀ x, x ∈ as ++ a.toList ↔ x ∈ as ∨ x ∈ a := fun x =>
    List.mem_append.trans (or_congr_right Option.mem_toList)
  have hpast : ∀ x ∈ as ++ a.toList, x.tick ≤ r'.ticks := by
    intro x hx
    rcases (hmem x).mp hx with hx | hx
    · exact Nat.le_trans (h.past x hx) ht
    · obtain ⟨htx, htr⟩ := ha x hx
      exact Nat.le_of_eq (htx.trans htr.symm)
  have hordered : (as ++ a.toList).Pairwise fun a b => a.tick < b.tick := by
    refine List.pairwise_append.mpr ⟨h.ordered, ?_, fun x hx y hy => ?_⟩
    · cases a with
      | none => exact .nil
      | some a => exact List.pairwise_singleton ..
    · have hty := (ha y (Option.mem_toList.mp hy)).1
      have hle := h.past x hx
      omega
  cases hw with
  | stays _ hg hv =>
    refine ⟨?_, fun phase t hgoes => ?_, hpast, hordered⟩
    · rw [hv, h.flag]
      -- the same evaluations let the segment go on as before
      constructor
      · rintro ⟨x, hx, hgx, hdx⟩
        exact ⟨x, (hmem x).mpr (.inl hx), (hg _ _).mpr hgx, by rw [hdecides, hdx]⟩
      · rintro ⟨x, hx, hgx, hdx⟩
        have hgx := (hg _ _).mp hgx
        rcases (hmem x).mp hx with hx | hx
        · exact ⟨x, hx, hgx, by rw [← hdecides, hdx]⟩
        · exact absurd hgx (hnew x hx _)
    · obtain ⟨x, hx, hphase⟩ := h.moves phase t ((hg phase t).mp hgoes)
      exact ⟨x, (hmem x).mpr (.inl hx), hphase⟩
  | moves a hg hv =>
    refine ⟨?_, fun phase t hgoes => ?_, hpast, hordered⟩
    · rw [hv, Bool.or_eq_true, h.flag]
      -- the new evaluation lets the segment go on, and counts if it was decisive
      constructor
      · rintro (⟨x, hx, hgx, hdx⟩ | hd)
        · exact ⟨x, (hmem x).mpr (.inl hx), (hg _ _).mpr (.inl hgx), by rw [hdecides, hdx]⟩
        · exact ⟨a, (hmem a).mpr (.inr rfl), (hg _ _).mpr (.inr ⟨rfl, rfl⟩), by rw [hdecides, hd]⟩
      · rintro ⟨x, hx, hgx, hdx⟩
        rw [hdecides] at hdx
        rcases (hmem x).mp hx with hx | hx
        · refine .inl ⟨x, hx, ((hg _ _).mp hgx).resolve_right fun heq => ?_, hdx⟩
          have hle := h.past x hx
          have hta := (ha a rfl).1
          omega
        · cases hx
          exact .inr hdx
    · rcases (hg phase t).mp hgoes with hgoes | ⟨rfl, rfl⟩
      · obtain ⟨x, hx, hphase⟩ := h.moves phase t hgoes
        exact ⟨x, (hmem x).mpr (.inl hx), hphase⟩
      · exact ⟨a, (hmem a).mpr (.inr rfl), rfl, rfl⟩

/-- A call that evaluates nothing, on the tick on which the segment is, keeps the invariant. -/
theorem Weighed.quiet (h : Weighed r as) (hw : Weighs r r' none) (ho : r'.origin = r.origin)
    (ht : r'.ticks = r.ticks) : Weighed r' as := by
  have hcall := h.call hw ho (Nat.le_of_eq ht.symm) fun _ ha => nomatch ha
  rwa [Option.toList_none, List.append_nil] at hcall

/-- Skipping a segment does not touch the flag. -/
theorem weighs_skipped : Weighs r r.skipped none := by
  unfold skipped
  split
  · exact .stays none (goesOn_entered
      (Phase.next_ne SegmentState.noConfusion SegmentState.noConfusion)) rfl
  · exact .stays none (fun _ _ => Iff.rfl) rfl

/-- Breaking a segment off does not touch the flag, either. -/
theorem weighs_cutOff (reason : String) : Weighs r (r.cutOff reason) none := by
  unfold cutOff
  split
  · exact .stays none (fun _ _ => Iff.rfl) rfl
  split
  · exact weighs_skipped
  · refine .stays none ?_ rfl
    exact goesOn_entered (r := { r with detail := some reason })
      (Phase.next_ne SegmentState.noConfusion SegmentState.noConfusion)

theorem ticks_skipped : r.skipped.ticks = r.ticks := by
  unfold skipped
  split <;> rfl

/-- Breaking a segment off is no tick. -/
theorem ticks_cutOff (reason : String) : (r.cutOff reason).ticks = r.ticks := by
  unfold cutOff
  split
  · rfl
  split
  · exact ticks_skipped
  · rfl

/-- **Every run with its evaluations keeps the invariant.** -/
theorem Assessed.weighed (h : Assessed r as) : Weighed r as := by
  induction h with
  | of s list number isRequired => exact .of s list number isRequired
  | @tick m env r as h ih =>
    -- ticks are counted up, unless the run is over
    have hle : r.ticks ≤ (r.tick m env).subject.ticks := by
      by_cases ht : r.state.isTerminal
      · rw [tick_of_isTerminal m env ht]
        exact Nat.le_refl _
      · rw [ticks_tick m env ht]
        exact Nat.le_succ _
    refine ih.call (tick_weighs h.reachable m env) (origin_tick m env) hle fun a ha => ?_
    obtain ⟨htick, ht⟩ := of_mem_assessment? ha
    exact ⟨htick, ticks_tick m env ht⟩
  | @abort reason env r as _ ih =>
    rw [abort_subject]
    exact ih.quiet (weighs_cutOff reason) (origin_cutOff reason) (ticks_cutOff reason)
  | @skip env r as _ ih =>
    rw [(skip_eq env).1]
    exact ih.quiet weighs_skipped origin_skipped ticks_skipped

/-- **Timeouts of validations count where they are decisive.** Criteria are met if they hold without
the waits for validations that have run out, unmet if they do not hold with them either, and
resolved by a timeout in between. A segment has the timeouts put down just if on an evaluation that
let it go on they were what lay in between; and whatever let it go on is the one evaluation of that
tick. -/
theorem timeouts_count_where_decisive :
    (∀ (view : View) (parent : Key) (cs : List Criteria) (join : Join) (status : CriteriaStatus),
      (Criteria.evaluateAll view parent cs join).1 = .ok status →
        let low := Criteria.holdsUnder false view parent cs join
        let high := Criteria.holdsUnder true view parent cs join
        (status = .met ↔ low) ∧ ((∃ reason, status = .unmet reason) ↔ ¬ high) ∧
          (status = .resolvedByTimeout ↔ high ∧ ¬ low)) ∧
    ∀ (r : SegmentRun) (as : List Assessment), Assessed r as →
      (r.validationsTimedOut ↔ ∃ a ∈ as, r.GoesOn a.phase a.tick ∧
        let low :=
          Criteria.holdsUnder false a.view (r.key a.phase) (r.criteria a.phase) (r.join a.phase)
        let high :=
          Criteria.holdsUnder true a.view (r.key a.phase) (r.criteria a.phase) (r.join a.phase)
        high ∧ ¬ low) ∧
      ∀ phase t, r.GoesOn phase t →
        ∃ a ∈ as, a.phase = phase ∧ a.tick = t ∧ ∀ a' ∈ as, a'.tick = t → a' = a := by
  -- the waits are decisive if the criteria hold with them and not without
  have hdecide : ∀ {view parent cs join}, Criteria.timeoutsDecide view parent cs join = true ↔
      Criteria.holdsUnder true view parent cs join = true ∧
        ¬ Criteria.holdsUnder false view parent cs join = true := by
    intro view parent cs join
    unfold Criteria.timeoutsDecide
    rw [Bool.and_eq_true, Bool.not_eq_true', Bool.not_eq_true]
  refine ⟨fun view parent cs join status h => ?_, fun r as h => ⟨?_, fun phase t hgoes => ?_⟩⟩
  · obtain ⟨hmet, hunmet, hresolved⟩ := Criteria.status_iff h
    exact ⟨hmet, hunmet.trans (Bool.not_eq_true _).symm.to_iff, hresolved.trans hdecide⟩
  · rw [h.weighed.flag]
    constructor
    · rintro ⟨a, ha, hgoes, hd⟩
      exact ⟨a, ha, hgoes, hdecide.mp hd⟩
    · rintro ⟨a, ha, hgoes, hd⟩
      exact ⟨a, ha, hgoes, hdecide.mpr hd⟩
  · obtain ⟨a, ha, hphase, htick⟩ := h.weighed.moves phase t hgoes
    refine ⟨a, ha, hphase, htick, fun a' ha' htick' => ?_⟩
    -- no tick evaluates twice
    have hnodup : (as.map Assessment.tick).Nodup :=
      (List.pairwise_map.mpr h.weighed.ordered).imp Nat.ne_of_lt
    exact List.inj_on_of_nodup_map hnodup ha' ha (htick'.trans htick.symm)

/-! ### A checkpoint -/

/-- A checkpoint that waits two seconds for what is still validated, unless the exit is there. -/
def checkpoint : Segment :=
  { Segment.ofName "Checkpoint" with
    endCriteria := [.void,
      .ofGroup .any [.of (.validations 2.0), .of (.path false ⟨"Exit", .nonZero, 0, 0, 0⟩)]] }

/-- The checkpoint after some seconds with a validation that does not come to an end, and its
evaluations. -/
def checkpointAfter : Nat → SegmentRun × List Assessment
  | 0 => (.of checkpoint "Main" 1 true, [])
  | n + 1 =>
      let (r, as) := checkpointAfter n
      let m : Moment := ⟨1.0, .empty, none⟩
      let env := { Environment.of .empty with pendingValidations := .fixed 1 }
      ((r.tick m env).subject, as ++ (assessment? m r env).toList)

/-- Each of the ticks at the checkpoint is one of a run with its evaluations. -/
theorem checkpointAfter_assessed (n : Nat) :
    Assessed (checkpointAfter n).1 (checkpointAfter n).2 := by
  induction n with
  | zero => exact .of checkpoint "Main" 1 true
  | succ n ih => exact ih.tick _ _

/-- The checkpoint is left on the third tick, and only because its time is up. -/
theorem checkpoint_gives_up :
    (checkpointAfter 2).1.validationsTimedOut = false ∧
      (checkpointAfter 3).1.validationsTimedOut = true ∧
      ∃ a ∈ (checkpointAfter 3).2, (checkpointAfter 3).1.GoesOn a.phase a.tick ∧ a.tick = 3 ∧
        Criteria.holdsUnder true a.view "1/end" checkpoint.endCriteria .all ∧
          ¬ Criteria.holdsUnder false a.view "1/end" checkpoint.endCriteria .all := by
  obtain ⟨-, hgoes⟩ := timeouts_count_where_decisive.2 _ _ (checkpointAfter_assessed 3)
  have hdone : (checkpointAfter 3).1.GoesOn .completion 3 := by
    have hhistory : (checkpointAfter 3).1.history =
        [(.awaitingEntry, 1), (.executing, 1), (.awaitingCompletion, 2), (.completed, 3)] := by
      decide +kernel
    -- the history has the segment complete on its third tick
    unfold GoesOn
    rw [hhistory]
    decide
  obtain ⟨a, ha, hphase, htick, -⟩ := hgoes .completion 3 hdone
  have hresolved : ∀ a ∈ (checkpointAfter 3).2, a.tick = 3 →
      (Criteria.evaluateAll a.view "1/end" checkpoint.endCriteria .all).1.toOption =
        some .resolvedByTimeout := by
    decide +kernel
  have hstatus : (Criteria.evaluateAll a.view "1/end" checkpoint.endCriteria .all).1 =
      .ok .resolvedByTimeout := by
    -- what was computed says so of every evaluation of that tick
    have h := hresolved a ha htick
    rcases he : (Criteria.evaluateAll a.view "1/end" checkpoint.endCriteria .all).1 with e | status
    · rw [he] at h
      cases h
    · rw [he] at h
      cases h
      rfl
  obtain ⟨-, -, hiff⟩ := timeouts_count_where_decisive.1 _ _ _ _ _ hstatus
  have hdecisive := hiff.mp rfl
  have htimedOut : (checkpointAfter 3).1.validationsTimedOut = true := by decide +kernel
  refine ⟨by decide +kernel, htimedOut, a, ha, ?_, htick, hdecisive⟩
  rw [hphase, htick]
  exact hdone

end SegmentRun

end Playtest
