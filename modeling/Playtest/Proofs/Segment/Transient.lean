import Playtest.Proofs.Criteria.Latches
import Playtest.Proofs.Segment.History
import Playtest.Proofs.Vision.Releases

/-!
# Transient end criteria

The end criteria of a segment are looked at on every tick on which it waits for them, from the one
on which it has come to wait. Where all of them are transient and have to hold together, they need
not hold at the same time: each is remembered from the tick on which it was met.

The main result, `SegmentRun.completes_when_all_were_met`, is that such a segment completes on the
first tick by which each of its end criteria was met on some tick, and on no other.

A run does not keep what it has seen. `SegmentRun.Watched` is a run with all its looks at the end
criteria, and `SegmentRun.Recorded` is the invariant: what is latched is what was met on one of the
looks (`SegmentRun.Remembers`), and as long as the segment waits, something is missing. The step is
the look of one tick (`Remembers.look`), for which the order of the criteria and of the ticks makes
no difference.
-/

namespace Playtest

open Playtest.Scene

/-- A segment whose end criteria are **all transient**, and have to hold together. -/
structure Segment.Transient (s : Segment) : Prop where
  join : s.endJoin = .all
  transient : ∀ c ∈ s.endCriteria, c.isTransient

/-- One look at end criteria: the tick, and what they were evaluated against. -/
structure Look where
  tick : Nat
  view : View

namespace SegmentRun

variable {m : Moment} {env env' : Environment} {r r' : SegmentRun} {cs : List Call}
  {looks : List Look} {c : Criteria} {i u : Nat}

/-! ### Looks -/

/-- A run with **all its looks** at the end criteria, after any calls in any environments. -/
inductive Watched : SegmentRun → List Look → Prop
  | of (s : Segment) (list : String) (number : Nat) (isRequired : Bool) :
      Watched (.of s list number isRequired) []
  | tick (m : Moment) (env : Environment) {r : SegmentRun} {looks : List Look}
      (h : Watched r looks) :
      Watched (r.tick m env).subject (looks ++ ((look? m r env).map (Look.mk (r.ticks + 1))).toList)
  | abort (reason : String) (env : Environment) {r : SegmentRun} {looks : List Look}
      (h : Watched r looks) : Watched (r.abort reason env).subject looks
  | skip (env : Environment) {r : SegmentRun} {looks : List Look} (h : Watched r looks) :
      Watched (r.skip env).subject looks

/-- The history of a run with its looks is that of its state. -/
theorem Watched.charted (h : Watched r looks) : Charted r := by
  induction h with
  | of => exact .untouched
  | tick m env _ ih => exact ih.tick m env
  | abort reason env _ ih => exact abort_subject env reason ▸ ih.cutOff reason
  | skip env _ ih => exact (skip_eq env).1 ▸ ih.skipped

/-- What the end criteria at a position have come to on a look. -/
def status (r : SegmentRun) (l : Look) (i : Nat) (c : Criteria) :
    Except EvaluationError CriteriaStatus :=
  (Criteria.evaluate l.view ((r.key .completion).member i) c).1

/-- Every end criteria was **met by a tick**, each of them on some look. -/
def MetBy (r : SegmentRun) (looks : List Look) (tick : Nat) : Prop :=
  ∀ i c, r.segment.endCriteria[i]? = some c →
    ∃ l ∈ looks, l.tick ≤ tick ∧ r.status l i c = .ok .met

/-- No end criteria ever was anything but met or unmet: none was in error, and no wait ran out. -/
def Plain (r : SegmentRun) (looks : List Look) : Prop :=
  ∀ l ∈ looks, ∀ i c, r.segment.endCriteria[i]? = some c →
    (∀ e, r.status l i c ≠ .error e) ∧ r.status l i c ≠ .ok .resolvedByTimeout

/-! ### What is remembered -/

/-- What is **latched** of the end criteria is what was met on one of the looks. -/
def Remembers (r : SegmentRun) (looks : List Look) : Prop :=
  ∀ i c, r.segment.endCriteria[i]? = some c →
    ((r.key .completion).member i ∈ r.latched ↔ ∃ l ∈ looks, r.status l i c = .ok .met)

/-- The keys of the two phases are apart. -/
theorem not_below_entry (r : SegmentRun) (i : Nat) :
    ¬ Key.Below (r.key .entry) ((r.key .completion).member i) := by
  intro h
  have hbelow :
      Key.Below (Phase.entry.key r.number) ((Phase.completion.key r.number).along [i]) := h
  cases (Phase.eq_of_below hbelow).2

/-- A segment that has come to wait for its end criteria remembers nothing of them yet. -/
theorem remembers_nil (h : ∀ k ∈ r.latched, Key.Below (r.key .entry) k) : Remembers r [] := by
  intro i c _
  refine iff_of_false (fun hk => not_below_entry r i (h _ hk)) ?_
  rintro ⟨l, hl, -⟩
  exact absurd hl List.not_mem_nil

/-- **One look.** If the criteria can be evaluated, then what was met by then is remembered, and the
criteria are met together just if each of them was met on some look. -/
theorem Remembers.look (h : Remembers r looks) (hs : r.segment.Transient) (l : Look)
    (hl : l.view.latched = r.latched) {status : CriteriaStatus} {notes : Notes}
    (he : Criteria.evaluateAll l.view (r.key .completion) r.segment.endCriteria .all =
      (.ok status, notes)) :
    Remembers (r.noted status notes.latched) (looks ++ [l]) ∧
      (status = .met ↔ ∀ i c, r.segment.endCriteria[i]? = some c →
        ∃ l' ∈ looks ++ [l], r.status l' i c = .ok .met) := by
  obtain ⟨hok, hmet, -⟩ := Criteria.evaluateAll_all (congrArg Prod.fst he)
  have hlast : l ∈ looks ++ [l] := List.mem_append_right _ List.mem_cons_self
  have htransient : ∀ (i : Nat) (c : Criteria), r.segment.endCriteria[i]? = some c →
      c.isTransient := fun i c hc => hs.transient c (List.mem_of_getElem? hc)
  refine ⟨fun i c hc => ?_, ?_⟩
  · -- what is new was met just now, and what was met before is not new
    have hnew := Criteria.mem_latched_evaluateAll_iff (congrArg Prod.fst he) hc (htransient i c hc)
    rw [he, hl] at hnew
    change (r.key .completion).member i ∈ r.latched ++ notes.latched ↔
      ∃ l' ∈ looks ++ [l], r.status l' i c = .ok .met
    rw [List.mem_append, h i c hc, hnew]
    constructor
    · rintro (⟨l', hl', hm⟩ | ⟨hm, -⟩)
      · exact ⟨l', List.mem_append_left _ hl', hm⟩
      · exact ⟨l, hlast, hm⟩
    · rintro ⟨l', hl', hm⟩
      by_cases hk : (r.key .completion).member i ∈ r.latched
      · exact .inl ((h i c hc).mp hk)
      · rcases List.mem_append.mp hl' with hl' | hl'
        · exact .inl ⟨l', hl', hm⟩
        · rw [List.mem_singleton.mp hl'] at hm
          exact .inr ⟨hm, hk⟩
  · rw [hmet]
    constructor
    · exact fun hall i c hc => ⟨l, hlast, hall i c hc⟩
    · intro hall i c hc
      obtain ⟨l', hl', hm⟩ := hall i c hc
      rcases List.mem_append.mp hl' with hl' | hl'
      · -- met before, and so latched by now
        have hk : (r.key .completion).member i ∈ l.view.latched := by
          rw [hl]
          exact (h i c hc).mpr ⟨l', hl', hm⟩
        obtain ⟨s, hs⟩ := hok i c hc
        exact Criteria.evaluate_of_latched (htransient i c hc) hk hs
      · rw [List.mem_singleton.mp hl'] at hm
        exact hm

/-! ### The invariant -/

/-- A segment that **has looked** at its end criteria on every tick from one on and before another
one, and remembers it. Up to the last tick something was missing. -/
structure Attentive (r : SegmentRun) (looks : List Look) (u n : Nat) : Prop where
  since : (.awaitingCompletion, u) ∈ r.history
  le : u ≤ r.ticks
  ticks : looks.map Look.tick = List.range' u (n - u)
  remembers : Remembers r looks
  missing : ∀ k, u ≤ k → k < r.ticks → ¬ MetBy r looks k

/-- The segment has never come to wait for its end criteria. -/
def Unasked (r : SegmentRun) : Prop := ∀ u, (.awaitingCompletion, u) ∉ r.history

/-- **The invariant** of a run with its looks. -/
inductive Recorded (r : SegmentRun) (looks : List Look) : Prop
  | before (hs : ¬ r.state.isTerminal) (hn : r.state ≠ .awaitingCompletion) (hu : r.Unasked)
      (hl : looks = []) (hk : ∀ k ∈ r.latched, Key.Below (r.key .entry) k)
  | waiting (u : Nat) (hs : r.state = .awaitingCompletion) (h : Attentive r looks u (r.ticks + 1))
      (hn : ¬ MetBy r looks r.ticks)
  | completed (u : Nat) (hs : r.state = .completed) (h : Attentive r looks u (r.ticks + 1))
      (hm : MetBy r looks r.ticks)
  | out (hs : r.state.isTerminal) (hn : r.state = .timedOut ∨ r.Unasked)

/-! ### Segments that do not wait for their end criteria -/

/-- Whatever else is entered, it is not that the segment waits for its end criteria. -/
theorem Unasked.entered (h : r.Unasked) {s : SegmentState} (hs : s ≠ .awaitingCompletion) :
    (r.entered s).Unasked := by
  intro u hu
  rcases List.mem_append.mp hu with hu | hu
  · exact h u hu
  · exact hs (congrArg Prod.fst (List.mem_singleton.mp hu)).symm

/-- Opening a tick with something else does not come to wait for the end criteria. -/
theorem Unasked.opens (h : r.Unasked) (ho : Opens m env r cs r')
    (hs : r'.state ≠ .awaitingCompletion) : r'.Unasked := by
  cases ho with
  | begin => exact h.entered (by decide)
  | wait | missing => exact h
  | unable hw reason => exact Unasked.entered (r := { r with detail := some reason }) h (by decide)
  | refuse aim he reason =>
    exact Unasked.entered (r := { r with isDispatched := true, detail := some reason }) h
      (by decide)
  | pass | astray | start => exact absurd rfl hs
  -- these open a tick of a segment that waits for its end criteria already
  | idle hi | poll hi => exact absurd hi hs

/-- Looking at entry criteria latches keys of theirs only. -/
theorem Unasked.inspects (h : r.Unasked) (hs : r.state ≠ .awaitingCompletion)
    (hk : ∀ k ∈ r.latched, Key.Below (r.key .entry) k) (hi : Inspects m env r r' env') :
    r'.Unasked ∧ r'.state ≠ .awaitingCompletion ∧
      ∀ k ∈ r'.latched, Key.Below (r'.key .entry) k := by
  -- of the two phases, the one that is looked at is that of the entry
  have hentry : ∀ phase : Phase, r.state = phase.state → phase = .entry := by
    rintro (_ | _) hphase
    · rfl
    · exact absurd hphase hs
  have hfailed : ∀ reason, (r.failed reason).Unasked := fun reason =>
    Unasked.entered (r := { r with detail := some reason }) h (by decide)
  have hends : ∀ s : SegmentState, s = .failed ∨ s = .executing → s ≠ .awaitingCompletion := by
    rintro s (rfl | rfl) <;> decide
  have hnoted : ∀ (phase : Phase), r.state = phase.state → ∀ status,
      ∀ k ∈ (r.noted status (r.verdict phase m (r.asking phase m env)).2.latched).latched,
        Key.Below (r.key .entry) k := by
    intro phase hphase status k hmem
    rcases List.mem_append.mp hmem with hmem | hmem
    · exact hk k hmem
    · rw [← hentry phase hphase]
      exact Criteria.below_of_mem_latched hmem
  cases hi with
  | rest => exact ⟨h, hs, hk⟩
  | tooNew => exact ⟨hfailed _, hends _ (.inl rfl), hk⟩
  | fail => exact ⟨hfailed _, hends _ (.inl rfl), hk⟩
  | @hold phase hphase status =>
    obtain rfl := hentry phase hphase
    have hnew : ∀ status latched, (r.noted status latched).Unasked := fun _ _ => h
    exact ⟨(hnew _ _).entered (by decide), hends _ (.inr rfl), hnoted .entry hphase status⟩
  | wait phase hphase => exact ⟨h, hs, hnoted phase hphase _⟩

/-- A segment that does not wait for its end criteria has not looked at them. -/
theorem Recorded.of_unasked (h : r.Unasked) (hs : r.state ≠ .awaitingCompletion)
    (hk : ∀ k ∈ r.latched, Key.Below (r.key .entry) k) : Recorded r [] := by
  by_cases ht : r.state.isTerminal
  · exact .out ht (.inr h)
  · exact .before ht hs h rfl hk

/-- Closing a tick looks at nothing. -/
theorem Recorded.closes (h : Recorded r looks) (hc : Closes env r cs r') : Recorded r' looks := by
  cases hc with
  | inTime => exact h
  | late => exact .out rfl (.inl rfl)

/-! ### Segments that wait for their end criteria -/

/-- What a tick opens with latches nothing. -/
theorem Opens.latched (h : Opens m env r cs r') : r'.latched = r.latched := by
  cases h <;> rfl

/-- A segment that was executing when the tick opened, and waits for its end criteria by then, has
come to wait for them on this tick. -/
theorem Opens.since (h : Opens m env r cs r') (hs : r.state ≠ .awaitingCompletion)
    (hs' : r'.state = .awaitingCompletion) : (.awaitingCompletion, r.ticks) ∈ r'.history := by
  have hlast : ∀ {x : SegmentRun}, x.ticks = r.ticks →
      (.awaitingCompletion, r.ticks) ∈ (x.entered .awaitingCompletion).history := by
    intro x hx
    rw [← hx]
    exact List.mem_append_right _ List.mem_cons_self
  cases h with
  | pass | astray | start => exact hlast rfl
  | wait | missing | poll => exact absurd hs' hs
  | idle => exact absurd hs' hs
  | begin | unable | refuse => exact absurd hs' (by show ¬ _ = _; exact SegmentState.noConfusion)

/-- What the end criteria have come to is a matter of what the run was made of. -/
theorem status_eq_of_origin (ho : r'.origin = r.origin) (l : Look) :
    r'.status l i c = r.status l i c := by
  unfold status
  rw [key_eq_of_origin ho]

/-- What was met is a matter of what the run was made of. -/
theorem MetBy.of_origin (ho : r'.origin = r.origin) {n : Nat} (h : MetBy r looks n) :
    MetBy r' looks n := by
  have hsegment : r'.segment = r.segment := by injection ho
  intro i c hc
  rw [hsegment] at hc
  obtain ⟨l, hl, hle, hm⟩ := h i c hc
  exact ⟨l, hl, hle, by rw [status_eq_of_origin ho, hm]⟩

/-- What was met by a tick was met by every later one. -/
theorem MetBy.mono {n n' : Nat} (h : MetBy r looks n) (hle : n ≤ n') : MetBy r looks n' := by
  intro i c hc
  obtain ⟨l, hl, hn, hm⟩ := h i c hc
  exact ⟨l, hl, Nat.le_trans hn hle, hm⟩

/-- What is remembered is a matter of what the run was made of and of what is latched. -/
theorem Remembers.of_origin (ho : r'.origin = r.origin) (hl : r'.latched = r.latched)
    (h : Remembers r looks) : Remembers r' looks := by
  have hsegment : r'.segment = r.segment := by injection ho
  have hnumber : r'.number = r.number := by injection ho
  intro i c hc
  rw [hsegment] at hc
  have hkey : r'.key .completion = r.key .completion := by unfold key; rw [hnumber]
  rw [hkey, hl, h i c hc]
  simp only [status_eq_of_origin ho]

/-- A segment that waits for its end criteria by the time the tick has opened was attentive up to
now. -/
theorem Recorded.opens (h : Recorded r looks) (ht : ¬ r.state.isTerminal)
    (ho : Opens m env (r.counted m.delta) cs r') (hs : r'.state = .awaitingCompletion) :
    ∃ u, Attentive r' looks u r'.ticks := by
  obtain ⟨hon, -⟩ := ho.onward
  have horigin : r'.origin = r.origin := hon.origin
  have hticks : r'.ticks = r.ticks + 1 := hon.ticks
  have hlatched : r'.latched = r.latched := ho.latched
  cases h with
  | before _ hn _ hl hk =>
    -- this is the first tick of all
    subst hl
    refine ⟨r'.ticks, ?_, Nat.le_refl _, ?_, ?_, fun k hle hlt => absurd hlt (Nat.not_lt.mpr hle)⟩
    · rw [hticks]
      exact ho.since hn hs
    · rw [Nat.sub_self]
      rfl
    · exact (remembers_nil hk).of_origin horigin hlatched
  -- it has looked up to its last tick, which is the one before this
  | waiting u _ h hn =>
    refine ⟨u, hon.keeps_history.subset h.since, ?_, ?_, h.remembers.of_origin horigin hlatched, ?_⟩
    · rw [hticks]
      exact Nat.le_succ_of_le h.le
    · rw [hticks]
      exact h.ticks
    · intro k _ hlt hm
      rw [hticks] at hlt
      exact hn ((hm.of_origin horigin.symm).mono (Nat.le_of_lt_succ hlt))
  | completed _ hs' => exact absurd (by rw [hs']; rfl) ht
  | out ht' => exact absurd ht' ht

/-- All the looks were on ticks so far. -/
theorem Attentive.tick_le {n : Nat} (h : Attentive r looks u (n + 1)) {l : Look} (hl : l ∈ looks) :
    l.tick ≤ n := by
  have hmem := List.mem_map_of_mem (f := Look.tick) hl
  rw [h.ticks, List.mem_range'_1] at hmem
  omega

/-- **The look of one tick.** -/
theorem Attentive.look (h : Attentive r looks u r.ticks) (hs : r.segment.Transient) (l : Look)
    (hl : l.view.latched = r.latched) (hn : l.tick = r.ticks) {status : CriteriaStatus}
    {notes : Notes}
    (he : Criteria.evaluateAll l.view (r.key .completion) r.segment.endCriteria .all =
      (.ok status, notes)) :
    Attentive (r.noted status notes.latched) (looks ++ [l]) u (r.ticks + 1) ∧
      (status = .met ↔ MetBy r (looks ++ [l]) r.ticks) := by
  obtain ⟨hremembers, hmet⟩ := h.remembers.look hs l hl he
  have hattentive : Attentive (r.noted status notes.latched) (looks ++ [l]) u (r.ticks + 1) := by
    refine ⟨h.since, h.le, ?_, hremembers, fun k hle hlt hm => h.missing k hle hlt fun i c hc => ?_⟩
    · have hle := h.le
      rw [List.map_append, h.ticks, List.map_singleton, hn,
        show r.ticks + 1 - u = r.ticks - u + 1 by omega, List.range'_1_concat,
        show u + (r.ticks - u) = r.ticks by omega]
    · -- the new look comes too late for that
      obtain ⟨l', hl', hle', hm'⟩ := hm i c hc
      rcases List.mem_append.mp hl' with hl' | hl'
      · exact ⟨l', hl', hle', hm'⟩
      · rw [List.mem_singleton.mp hl', hn] at hle'
        exact absurd hlt (Nat.not_lt.mpr hle')
  refine ⟨hattentive, hmet.trans ?_⟩
  constructor
  · intro hall i c hc
    obtain ⟨l', hl', hm⟩ := hall i c hc
    exact ⟨l', hl', hattentive.tick_le hl', hm⟩
  · intro hall i c hc
    obtain ⟨l', hl', -, hm⟩ := hall i c hc
    exact ⟨l', hl', hm⟩

/-- A segment that looks at its end criteria goes on to wait, or completes if nothing is missing any
more. -/
theorem Attentive.inspects (h : Attentive r looks u r.ticks) (hj : r.segment.Transient)
    (hs : r.state = .awaitingCompletion) (hi : Inspects m env r r' env')
    (hp : Plain r (looks ++ [⟨r.ticks, sighting .completion m r env⟩])) :
    Recorded r' (looks ++ [⟨r.ticks, sighting .completion m r env⟩]) := by
  set l : Look := ⟨r.ticks, sighting .completion m r env⟩ with hl
  have hlast : l ∈ looks ++ [l] := List.mem_append_right _ List.mem_cons_self
  have hverdict : r.verdict .completion m (r.asking .completion m env) =
      Criteria.evaluateAll l.view (r.key .completion) r.segment.endCriteria .all := by
    rw [← hj.join]
    rfl
  have hphase : ∀ {phase : Phase}, r.state = phase.state → phase = .completion := fun hphase =>
    Phase.eq_of_state_eq (hphase.symm.trans hs)
  rcases he : Criteria.evaluateAll l.view (r.key .completion) r.segment.endCriteria .all with
    ⟨e | status, notes⟩
  · -- no end criteria was in error
    obtain ⟨i, c, hc, heval⟩ := Criteria.evaluateAll_error (congrArg Prod.fst he)
    exact absurd heval ((hp l hlast i c hc).1 e)
  -- no wait has run out, so what holds is met
  have hsatisfied : status.isSatisfied ↔ status = .met := by
    cases status with
    | met => exact iff_of_true rfl rfl
    | unmet => exact iff_of_false Bool.false_ne_true fun h => by cases h
    | resolvedByTimeout =>
      obtain ⟨-, -, hresolved⟩ := Criteria.evaluateAll_all (congrArg Prod.fst he)
      obtain ⟨i, c, hc, heval⟩ := hresolved rfl
      exact absurd heval (hp l hlast i c hc).2
  obtain ⟨hattentive, hmet⟩ := h.look hj l rfl rfl he
  cases hi with
  | rest hr => exact absurd hs (hr .completion)
  | tooNew hr => exact absurd (hr.symm.trans hs) (by decide)
  | fail phase hr herr =>
    obtain rfl := hphase hr
    rw [hverdict, he] at herr
    cases herr
  | hold phase hr hok hh =>
    obtain rfl := hphase hr
    rw [hverdict, he] at hok ⊢
    cases hok
    refine .completed u rfl ?_ (hmet.mp (hsatisfied.mp hh))
    exact ⟨List.mem_append_left _ hattentive.since, hattentive.le, hattentive.ticks,
      hattentive.remembers, hattentive.missing⟩
  | wait phase hr hok hh =>
    obtain rfl := hphase hr
    rw [hverdict, he] at hok ⊢
    cases hok
    exact .waiting u hs hattentive fun hm => hh (hsatisfied.mpr (hmet.mpr hm))

/-! ### Calls -/

/-- Nothing is looked at once the segment has ended. -/
theorem look?_of_isTerminal (h : r.state.isTerminal) (m : Moment) (env : Environment) :
    look? m r env = none := by
  have hc : completing? m (r.counted m.delta) env = none := by
    unfold completing?
    split
    · next hs => exact absurd (hs ▸ h : SegmentState.isTerminal _ = true) (by decide)
    · next hs => exact absurd (hs ▸ h : SegmentState.isTerminal _ = true) (by decide)
    all_goals rfl
  rw [look?, hc]
  rfl

/-- What was plain with more looks was plain with fewer. -/
theorem Plain.of_origin (ho : r'.origin = r.origin) {earlier : List Look} (hl : earlier ⊆ looks)
    (h : Plain r' looks) : Plain r earlier := by
  have hsegment : r'.segment = r.segment := by injection ho
  intro l hmem i c hc
  rw [← hsegment] at hc
  rw [← status_eq_of_origin ho]
  exact h l (hl hmem) i c hc

/-- **A tick keeps the invariant**, with what it has looked at. -/
theorem Recorded.tick (h : Recorded r looks) (hj : r.segment.Transient) (m : Moment)
    (env : Environment)
    (hp : Plain r (looks ++ ((look? m r env).map (Look.mk (r.ticks + 1))).toList)) :
    Recorded (r.tick m env).subject
      (looks ++ ((look? m r env).map (Look.mk (r.ticks + 1))).toList) := by
  by_cases ht : r.state.isTerminal
  · rw [look?_of_isTerminal ht, tick_of_isTerminal m env ht]
    exact (List.append_nil looks).symm ▸ h
  obtain ⟨cs, ds, env₂, r₁, r₂, ho, hi, hc, -, hlook⟩ := tick_looks m env ht
  refine Recorded.closes ?_ hc
  have hticks : r₁.ticks = r.ticks + 1 := ho.onward.1.ticks
  have horigin : r₁.origin = r.origin := ho.onward.1.origin
  have hsegment : r₁.segment = r.segment := by injection horigin
  -- a segment that waits by now looks at its end criteria, and any other one does not
  by_cases hs : r₁.state = .awaitingCompletion
  · rw [if_pos hs] at hlook
    rw [hlook, ← hticks] at hp ⊢
    obtain ⟨u, hattentive⟩ := h.opens ht ho hs
    exact hattentive.inspects (hsegment ▸ hj) hs hi (hp.of_origin horigin.symm (List.Subset.refl _))
  · rw [if_neg hs] at hlook
    rw [hlook]
    have hn : r.state ≠ .awaitingCompletion := fun hr => hs (ho.awaitingCompletion hr)
    cases h with
    | before _ _ hu hl hk =>
      subst hl
      have hkey : r₁.key .entry = r.key .entry := by
        have hnumber : r₁.number = r.number := by injection horigin
        rw [key, key, hnumber]
      have hu' : r₁.Unasked := Unasked.opens (r := r.counted m.delta) hu ho hs
      have hk' : ∀ k ∈ r₁.latched, Key.Below (r₁.key .entry) k := by
        rw [ho.latched, hkey]
        exact hk
      obtain ⟨hu₂, hs₂, hk₂⟩ := hu'.inspects hs hk' hi
      exact .of_unasked hu₂ hs₂ hk₂
    | waiting _ hr => exact absurd hr hn
    | completed _ hr => exact absurd (by rw [hr]; rfl) ht
    | out ht' => exact absurd ht' ht

/-- Skipping keeps the invariant, since only a pending run is skipped. -/
theorem Recorded.skipped (h : Recorded r looks) : Recorded r.skipped looks := by
  unfold SegmentRun.skipped
  split
  · next hp =>
    cases h with
    | before _ _ hu => exact .out rfl (.inr (hu.entered (s := .skipped) (by decide)))
    | waiting _ hr | completed _ hr => exact absurd (hp.symm.trans hr) (by decide)
    | out ht => exact absurd (hp ▸ ht : SegmentState.isTerminal _ = true) (by decide)
  · exact h

/-- Breaking off keeps the invariant. -/
theorem Recorded.cutOff (h : Recorded r looks) (reason : String) :
    Recorded (r.cutOff reason) looks := by
  unfold SegmentRun.cutOff
  split
  · exact h
  split
  · exact h.skipped
  · exact .out rfl (.inl rfl)

/-- **Every run with its looks keeps the invariant**, as long as they were plain. -/
theorem Watched.recorded (h : Watched r looks) (hj : r.segment.Transient) (hp : Plain r looks) :
    Recorded r looks := by
  induction h with
  | of s list number isRequired =>
    refine .of_unasked (fun u hu => ?_) (by show SegmentState.pending ≠ _; decide) fun k hk => ?_
    · exact absurd hu List.not_mem_nil
    · exact absurd hk List.not_mem_nil
  | @tick m env r looks _ ih =>
    have horigin : (r.tick m env).subject.origin = r.origin := origin_tick m env
    have hsegment : (r.tick m env).subject.segment = r.segment := by injection horigin
    have hj' : r.segment.Transient := hsegment ▸ hj
    -- what is plain with one look more was plain without it
    have hbefore := hp.of_origin horigin (List.subset_append_left looks _)
    exact (ih hj' hbefore).tick hj' m env (hp.of_origin horigin (List.Subset.refl _))
  | @abort reason env r looks _ ih =>
    rw [abort_subject] at hj hp ⊢
    have horigin : (r.cutOff reason).origin = r.origin := origin_cutOff reason
    have hsegment : (r.cutOff reason).segment = r.segment := by injection horigin
    exact (ih (hsegment ▸ hj) (hp.of_origin horigin (List.Subset.refl _))).cutOff reason
  | @skip env r looks _ ih =>
    rw [(skip_eq env).1] at hj hp ⊢
    have hsegment : r.skipped.segment = r.segment := by injection origin_skipped (r := r)
    exact (ih (hsegment ▸ hj) (hp.of_origin origin_skipped (List.Subset.refl _))).skipped

/-! ### Completion -/

/-- Nothing is remembered twice: a state was entered on one tick at most. -/
theorem Charted.tick_unique (h : Charted r) {s : SegmentState} {t : Nat} (ht : (s, t) ∈ r.history)
    (hu : (s, u) ∈ r.history) : t = u :=
  congrArg Prod.snd (List.inj_on_of_nodup_map h.path.nodup ht hu rfl)

/-- A segment has completed on its last tick, if it has. -/
theorem Charted.completed_mem_iff (h : Charted r) {n : Nat} :
    (.completed, n) ∈ r.history ↔ r.state = .completed ∧ n = r.ticks := by
  have hwaiting : ∀ {s k hs}, Chart s k hs → s.isWaiting → (.completed, n) ∉ hs := by
    intro s k hs hchart hw hmem
    obtain ⟨j, -, hstages⟩ := hchart.of_isWaiting hw
    have hmem : .completed ∈ hs.map Prod.fst := List.mem_map_of_mem hmem
    -- the stages through which a segment waits come before all ends
    rw [hstages] at hmem
    exact absurd (List.mem_of_mem_take hmem) (by decide)
  unfold Charted at h
  generalize r.state = s at h ⊢
  generalize r.history = hs at h ⊢
  generalize r.ticks = k at h ⊢
  cases h with
  | untouched => simp
  | skipped => simp
  | entry hn => exact iff_of_false (hwaiting (.entry hn) rfl) (by simp)
  | executing ht hn => exact iff_of_false (hwaiting (.executing ht hn) rfl) (by simp)
  | completion ht hu hn => exact iff_of_false (hwaiting (.completion ht hu hn) rfl) (by simp)
  | completed h => simp [hwaiting h rfl]
  | stopped h hw he => rcases he with rfl | rfl <;> simp [hwaiting h hw]

/-- **A segment with transient end criteria completes when all of them were met**, each on some
tick. If it has come to wait for them, and neither an error nor the time nor anybody else has
stopped it, then it has looked at them on every tick since, and has completed on the first tick by
which all were met. -/
theorem completes_when_all_were_met (h : Watched r looks) (hj : r.segment.Transient)
    (hp : Plain r looks) (hr : r.state ≠ .timedOut) (hu : (.awaitingCompletion, u) ∈ r.history) :
    u ≤ r.ticks ∧ looks.map Look.tick = List.range' u (r.ticks + 1 - u) ∧
      ∀ n, (.completed, n) ∈ r.history ↔
        u ≤ n ∧ n ≤ r.ticks ∧ MetBy r looks n ∧ ∀ k, u ≤ k → k < n → ¬ MetBy r looks k := by
  have hchart := h.charted
  cases h.recorded hj hp with
  | before _ _ hn => exact absurd hu (hn u)
  | out _ hn => exact absurd hu (hn.resolve_left hr u)
  | waiting v hs hattentive hn =>
    obtain rfl := hchart.tick_unique hu hattentive.since
    refine ⟨hattentive.le, hattentive.ticks, fun n => ?_⟩
    -- it still waits, because something is missing up to its last tick
    rw [hchart.completed_mem_iff]
    refine iff_of_false (fun hc => absurd (hs.symm.trans hc.1) (by decide)) ?_
    rintro ⟨-, hle, hm, -⟩
    exact hn (hm.mono hle)
  | completed v hs hattentive hm =>
    obtain rfl := hchart.tick_unique hu hattentive.since
    refine ⟨hattentive.le, hattentive.ticks, fun n => ?_⟩
    rw [hchart.completed_mem_iff, and_iff_right hs]
    constructor
    · rintro rfl
      exact ⟨hattentive.le, Nat.le_refl _, hm, hattentive.missing⟩
    · rintro ⟨hle, hn, hmn, -⟩
      -- before its last tick something was missing
      by_contra hne
      exact hattentive.missing n hle (by omega) hmn

/-! ### A quest -/

/-- Something is to be seen at a path. -/
def present (path : String) : Criteria := .of (.path false ⟨path, .nonZero, 0, 0, 0⟩)

/-- A quest for a sword and a shield that are seen at the same time, and for a key. -/
def quest : Segment :=
  { Segment.ofName "Quest" with
    endCriteria :=
      [(Criteria.ofGroup .all [present "Sword", present "Shield"]).transient,
        (present "Key").transient] }

/-- What there is to see on a tick: first the key, then a sword without a shield, and at last
both. -/
def questMoment (tick : Nat) : Moment :=
  let paths := match tick with
    | 2 => ["Key"]
    | 3 => ["Sword"]
    | 5 => ["Sword", "Shield"]
    | _ => []
  ⟨1.0, { Snapshot.empty with entities := paths.map fun path => ⟨0, none, path, path, none, []⟩ },
    none⟩

/-- The quest after some ticks, with its looks. -/
def questAfter : Nat → SegmentRun × List Look
  | 0 => (.of quest "Main" 1 true, [])
  | n + 1 =>
      let (r, looks) := questAfter n
      let m := questMoment (n + 1)
      ((r.tick m (.of .empty)).subject,
        looks ++ ((look? m r (.of .empty)).map (Look.mk (r.ticks + 1))).toList)

/-- Each of the ticks of the quest is one of a run with its looks. -/
theorem questAfter_watched (n : Nat) : Watched (questAfter n).1 (questAfter n).2 := by
  induction n with
  | zero => exact .of quest "Main" 1 true
  | succ n ih => exact ih.tick (questMoment (n + 1)) (.of .empty)

/-- Whether criteria came to be met or unmet. -/
def isPlain : Except EvaluationError CriteriaStatus → Bool
  | .ok .met | .ok (.unmet _) => true
  | .ok .resolvedByTimeout | .error _ => false

/-- All the looks at the quest were plain. -/
theorem questAfter_plain : Plain (questAfter 6).1 (questAfter 6).2 := by
  have hall : ∀ l ∈ (questAfter 6).2, ∀ c ∈ (questAfter 6).1.segment.endCriteria.zipIdx,
      isPlain ((questAfter 6).1.status l c.2 c.1) := by decide +kernel
  intro l hl i c hc
  have hplain := hall l hl (c, i) (Criteria.mem_zipIdx_iff.mpr hc)
  constructor
  · intro e he
    rw [he] at hplain
    cases hplain
  · intro ht
    rw [ht] at hplain
    cases hplain

/-- The key is met three ticks before the rest, and the quest completes with the rest. -/
theorem quest_completes_on_five :
    (.completed, 5) ∈ (questAfter 6).1.history ∧ MetBy (questAfter 6).1 (questAfter 6).2 5 ∧
      ¬ MetBy (questAfter 6).1 (questAfter 6).2 4 := by
  have hhistory : (questAfter 6).1.history =
      [(.awaitingEntry, 1), (.executing, 1), (.awaitingCompletion, 2), (.completed, 5)] := by
    decide +kernel
  have hstate : (questAfter 6).1.state ≠ .timedOut := by decide +kernel
  have htransient : (questAfter 6).1.segment.Transient := by
    have hsegment : (questAfter 6).1.segment = quest := rfl
    rw [hsegment]
    exact ⟨rfl, by decide⟩
  have hwait : (.awaitingCompletion, 2) ∈ (questAfter 6).1.history := by rw [hhistory]; decide
  have hdone : (.completed, 5) ∈ (questAfter 6).1.history := by rw [hhistory]; decide
  obtain ⟨-, -, hiff⟩ := completes_when_all_were_met (questAfter_watched 6) htransient
    questAfter_plain hstate hwait
  -- on the fifth tick the rest is met, and before it something was missing
  obtain ⟨-, -, hmet, hmissing⟩ := (hiff 5).mp hdone
  exact ⟨hdone, hmet, hmissing 4 (by decide) (by decide)⟩

end SegmentRun

end Playtest
