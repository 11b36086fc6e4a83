import Playtest.Proofs.Criteria.Latches
import Playtest.Proofs.Segment.TimeLimit
import Playtest.Proofs.Segment.Versions

/-!
# Segments that wait for nothing

A segment without an action, of which all criteria are void, is complete on its second tick,
whatever its time limit is. On the first tick it has met its entry criteria, and no time has passed
by then. On the second one it has nothing to start and meets its end criteria, and that comes before
the look at the time.

`SegmentRun.Left` says how many ticks are left to such a segment, with all that can be seen of it by
then. `SegmentRun.Left.tick` is the step: one less.
-/

namespace Playtest

open Playtest.Scene

/-! ### Void criteria -/

namespace Criteria

/-- The criteria **is void**: it is met anyway. -/
def IsVoid (c : Criteria) : Prop := ∃ v isTransient, c = .single v isTransient .void

variable {cs : List Criteria}

/-- Void criteria are all met, wherever evaluation begins with them. -/
theorem evaluateFrom_void (view : View) (parent : Key) (position : Nat) (notes : Notes)
    (h : ∀ c ∈ cs, c.IsVoid ∧ c.apiVersion ≤ .current) :
    (evaluateFrom view parent position cs notes).1 = .ok (cs.map fun _ => .met) := by
  induction cs generalizing position notes with
  | nil => rfl
  -- on the criteria; each of them is supported and void, so it is met and the rest is looked at
  | cons c rest ih =>
    rw [List.forall_mem_cons] at h
    obtain ⟨⟨⟨v, isTransient, rfl⟩, hv⟩, hrest⟩ := h
    have hmet : (evaluateKeyed view (parent.member position) (.single v isTransient .void)
        notes).1 = .ok .met := by
      have hversion : ¬ Version.current < v := UInt32.not_lt.mpr hv
      unfold evaluateKeyed
      rw [if_neg hversion]
      split <;> rfl
    unfold evaluateFrom
    split
    · next he =>
      rw [he] at hmet
      cases hmet
    · next status notes' he =>
      rw [he] at hmet
      obtain rfl : status = .met := Except.ok.inj hmet
      have hfrom := ih (position + 1) notes' hrest
      split
      · next hf =>
        rw [hf] at hfrom
        cases hfrom
      · next hf =>
        rw [hf] at hfrom
        obtain rfl := Except.ok.inj hfrom
        rfl

/-- Statuses that are all met come to one that is met, however they belong together. -/
theorem combine_met (join : Join) (cs : List Criteria) :
    CriteriaStatus.combine join (cs.map fun _ => .met) = .met := by
  cases join with
  | all =>
    refine CriteriaStatus.combine_all_eq_met_iff.mpr fun s hs => ?_
    obtain ⟨-, -, rfl⟩ := List.mem_map.mp hs
    rfl
  | any =>
    cases cs with
    | nil => rfl
    | cons => rfl

/-- **Void criteria are met.** -/
theorem evaluateAll_void (view : View) (parent : Key) (join : Join)
    (h : ∀ c ∈ cs, c.IsVoid ∧ c.apiVersion ≤ .current) :
    (evaluateAll view parent cs join).1 = .ok .met := by
  have hfrom := evaluateFrom_void view parent 0 .none h
  unfold evaluateAll
  split
  · next hf =>
    rw [hf] at hfrom
    cases hfrom
  · next hf =>
    rw [hf] at hfrom
    obtain rfl := Except.ok.inj hfrom
    exact congrArg Except.ok (combine_met join cs)

end Criteria

/-- A segment that **waits for nothing**: it has no action, and all of its criteria are void. -/
structure Segment.Unhindered (s : Segment) : Prop where
  supported : s.Supported
  action : s.action = none
  criteria : ∀ c ∈ s.entryCriteria ++ s.endCriteria, c.IsVoid

namespace SegmentRun

variable {r r' : SegmentRun} {m : Moment} {env env' : Environment}

/-- The criteria of such a segment are met in both phases. -/
theorem verdict_of_unhindered (h : r.segment.Unhindered) (phase : Phase) (m : Moment)
    (env : Environment) : (r.verdict phase m env).1 = .ok .met := by
  refine Criteria.evaluateAll_void _ _ _ fun c hc => ?_
  have hmem : c ∈ r.segment.entryCriteria ++ r.segment.endCriteria := mem_criteria hc
  exact ⟨h.criteria c hmem, h.supported _ (.criteria hmem .self)⟩

/-- Criteria that are void are met as soon as they are looked at. -/
theorem Inspects.of_unhindered (hi : Inspects m env r r' env') (h : r.segment.Unhindered)
    (phase : Phase) (hs : r.state = phase.state) :
    ∃ latched, r' = (r.noted .met latched).entered phase.next := by
  have hverdict : ∀ phase env, (r.verdict phase m env).1 = .ok .met :=
    fun phase env => verdict_of_unhindered h phase m env
  cases hi with
  | rest hn => exact absurd hs (hn phase)
  | tooNew _ hv => exact absurd hv (r.segment.not_current_lt_iff.mpr h.supported)
  | fail _ _ he =>
    -- neither an error nor an unmet criteria comes of the evaluation
    rw [hverdict] at he
    cases he
  | hold phase' hs' he hh =>
    obtain rfl := Phase.eq_of_state_eq (hs'.symm.trans hs)
    rw [hverdict] at he
    obtain rfl := Except.ok.inj he
    exact ⟨_, rfl⟩
  | wait _ _ he hh =>
    rw [hverdict] at he
    obtain rfl := Except.ok.inj he
    exact absurd rfl hh

/-! ### Two ticks -/

/-- A segment that waits for nothing, and **how many ticks are left** to it. -/
inductive Left : Nat → SegmentRun → Prop
  | unbegun {s : Segment} (h : s.Unhindered) (list : String) (number : Nat) (isRequired : Bool) :
      Left 2 (.of s list number isRequired)
  | halfway {r : SegmentRun} (h : r.segment.Unhindered) (hs : r.state = .executing)
      (ht : r.ticks = 1) (hh : r.history = [(.awaitingEntry, 1), (.executing, 1)])
      (hv : r.validationsTimedOut = false) : Left 1 r
  | done {r : SegmentRun} (hs : r.state = .completed) (ht : r.ticks = 2)
      (hh : r.history =
        [(.awaitingEntry, 1), (.executing, 1), (.awaitingCompletion, 2), (.completed, 2)])
      (hv : r.validationsTimedOut = false) : Left 0 r

/-- What has nothing to start goes on to its end criteria in the same tick. -/
theorem advance_inspects (hs : r.state = .executing) (ha : r.segment.action = none) (m : Moment)
    (env : Environment) :
    Inspects m env (r.started true) (advance m r env).subject (advance m r env).env := by
  have hdispatch : dispatch m r env =
      .still { r with isDispatched := true, isActionComplete := true } env := by
    unfold dispatch
    rw [ha]
  -- it counts as dispatched, and it has not ended
  have hgoes : (true && !r.state.isTerminal) = true := by
    rw [hs]
    rfl
  have hadvance : advance m r env = (dispatch m r env).andThen fun r env =>
      if r.isDispatched && !r.state.isTerminal then
        (enter .awaitingCompletion r env).andThen (await .completion m)
      else .still r env := by
    unfold advance
    rw [hs]
  have hi := await_inspects .completion m env (show (r.started true).state = _ from rfl)
  rw [hadvance, hdispatch]
  change Inspects m env _
    (if (true && !r.state.isTerminal) = true then _ else _ : Turn SegmentRun).subject
    (if (true && !r.state.isTerminal) = true then _ else _ : Turn SegmentRun).env
  rw [if_pos hgoes]
  exact hi

/-- **A tick is one less that is left.** -/
theorem Left.tick {n : Nat} (h : Left (n + 1) r) (m : Moment) (env : Environment) :
    Left n (r.tick m env).subject := by
  generalize hn : n + 1 = k at h
  cases h with
  | @unbegun s h list number isRequired =>
    obtain rfl : n = 1 := Nat.succ.inj hn
    -- the entry criteria are met in the tick that begins
    have hi := begin_inspects (r := (SegmentRun.of s list number isRequired).counted m.delta) m env
    obtain ⟨latched, hentered⟩ := hi.of_unhindered h .entry rfl
    rw [subject_tick (show ¬ SegmentState.pending.isTerminal by decide)]
    obtain ⟨cs, hc, -⟩ := checkTimeout_closes
      (begin m ((SegmentRun.of s list number isRequired).counted m.delta) env).subject
      (begin m ((SegmentRun.of s list number isRequired).counted m.delta) env).env
    change Left 1 (checkTimeout (begin m _ env).subject (begin m _ env).env).subject
    rw [hentered] at hc ⊢
    rcases hc.cases with ⟨hsame, -⟩ | ⟨-, -, -, hup⟩
    · rw [hsame]
      exact .halfway h rfl rfl rfl rfl
    · -- no time has passed on the first tick
      obtain ⟨hlimited, hlate⟩ := (isTimeUp_iff _).mp hup
      exact absurd hlate (Clock.not_le_zero hlimited)
  | halfway h hs ht hh hv =>
    obtain rfl : n = 0 := Nat.succ.inj hn
    have hi := advance_inspects (r := r.counted m.delta) hs h.action m env
    obtain ⟨latched, hentered⟩ := hi.of_unhindered h .completion rfl
    rw [subject_tick (show ¬ r.state.isTerminal by rw [hs]; decide)]
    obtain ⟨cs, hc, -⟩ := checkTimeout_closes (advance m (r.counted m.delta) env).subject
      (advance m (r.counted m.delta) env).env
    change Left 0 (checkTimeout (advance m _ env).subject (advance m _ env).env).subject
    rw [hentered] at hc ⊢
    -- what is complete is not timed out
    rcases hc.cases with ⟨hsame, -⟩ | ⟨-, -, hgoing, -⟩
    · rw [hsame]
      refine .done rfl ?_ ?_ ?_
      · show r.ticks + 1 = 2
        rw [ht]
      · show r.history ++ [(.awaitingCompletion, r.ticks + 1)] ++ [(.completed, r.ticks + 1)] = _
        rw [hh, ht]
        rfl
      · show (r.validationsTimedOut || false) = false
        rw [hv]
        rfl
    · exact absurd rfl hgoing
  | done => cases hn

end SegmentRun

end Playtest
