import Mathlib.Logic.Relation
import Playtest.Proofs.Segment.Parts

/-!
# The course of a segment

What the three calls that a segment's run can get make of it, so that nobody has to look into a tick
again:

* `SegmentRun.tick_course`: a tick of a run that has not ended counts one tick, keeps what the run
  was made of, moves along `SegmentState.Follows` only, and leaves the run begun,
* `SegmentRun.skip_eq`, `SegmentRun.abort_subject`: what ends a run from outside is a function of
  the run alone, whatever the environment is (`SegmentRun.skipped`, `SegmentRun.cutOff`),
* `SegmentRun.onlyAborts_abort`: a run that is broken off calls handlers only to make them give up.

Each of the three parts of a tick may move the state. `Onward` says what all of them have in common,
and is closed under doing one part after another (`Onward.trans`).

`SegmentRun.Sound` is the invariant of a segment's run: a pending run is as it was made, a skipped
one is that and nothing but skipped, and any other has ticked.
-/

namespace Playtest

open Playtest.Scene

/-- Handlers have been called for nothing but to make them **give up**. -/
def Environment.OnlyAborts (env env' : Environment) : Prop :=
  ∃ aborts, env'.calls = env.calls ++ aborts ∧ ∀ c ∈ aborts, ∃ handler segment,
    c = .abort handler segment

/-- Where no handler is called, none is called for anything else. -/
theorem Environment.OnlyAborts.refl (env : Environment) : env.OnlyAborts env :=
  ⟨[], (List.append_nil _).symm, fun _ hc => by cases hc⟩

/-- First only giving up and then only giving up is only giving up. -/
theorem Environment.OnlyAborts.trans {env env' env'' : Environment} (h : env.OnlyAborts env')
    (h' : env'.OnlyAborts env'') : env.OnlyAborts env'' := by
  obtain ⟨as, ha, has⟩ := h
  obtain ⟨bs, hb, hbs⟩ := h'
  refine ⟨as ++ bs, ?_, fun c hc => (List.mem_append.mp hc).elim (has c) (hbs c)⟩
  rw [hb, ha, List.append_assoc]

namespace SegmentState

/-- Whether a segment has been reached by a tick. -/
def isBegun : SegmentState → Bool
  | pending | skipped => false
  | awaitingEntry | executing | awaitingCompletion | completed | timedOut | failed => true

/-- The **changes of state** that a tick can make. -/
inductive Follows : SegmentState → SegmentState → Prop
  | begin : Follows pending awaitingEntry
  | execute : Follows awaitingEntry executing
  | dispatch : Follows executing awaitingCompletion
  | complete : Follows awaitingCompletion completed
  | timeOut {s : SegmentState} : s.isWaiting → Follows s timedOut
  | fail {s : SegmentState} : s.isWaiting → Follows s failed

theorem Follows.isBegun {s s' : SegmentState} (h : Follows s s') : s'.isBegun := by
  cases h <;> rfl

theorem not_isBegun_iff {s : SegmentState} : ¬ s.isBegun ↔ s = pending ∨ s = skipped := by
  cases s <;> simp [isBegun]

/-- What has not ended and is not pending has begun. -/
theorem isBegun_of_ne_pending {s : SegmentState} (ht : ¬ s.isTerminal) (hp : s ≠ pending) :
    s.isBegun := by
  cases s <;> simp_all [isBegun, isTerminal]

theorem not_isWaiting_of_isTerminal {s : SegmentState} (h : s.isTerminal) : ¬ s.isWaiting := by
  cases s <;> simp_all [isTerminal, isWaiting]

theorem isWaiting_of_isBegun {s : SegmentState} (hb : s.isBegun) (ht : ¬ s.isTerminal) :
    s.isWaiting := by
  cases s <;> simp_all [isBegun, isTerminal, isWaiting]

end SegmentState

/-- The state behind a phase follows that of the phase. -/
theorem Phase.state_follows (p : Phase) : p.state.Follows p.next := by
  cases p with
  | entry => exact .execute
  | completion => exact .complete

namespace SegmentRun

variable {r r' : SegmentRun} (m : Moment) (env : Environment)

/-- The run as it was made. -/
def origin (r : SegmentRun) : SegmentRun := .of r.segment r.listName r.number r.isRequired

/-- Whether a segment is required is settled when its run is made. -/
theorem isRequired_eq_of_origin (h : r'.origin = r.origin) : r'.isRequired = r.isRequired := by
  injection h

/-- The segment is settled when its run is made. -/
theorem segment_eq_of_origin (h : r'.origin = r.origin) : r'.segment = r.segment := by
  injection h

theorem number_eq_of_origin (h : r'.origin = r.origin) : r'.number = r.number := by
  injection h

theorem key_eq_of_origin (h : r'.origin = r.origin) (phase : Phase) :
    r'.key phase = r.key phase := by
  unfold key
  rw [number_eq_of_origin h]

theorem criteria_eq_of_origin (h : r'.origin = r.origin) (phase : Phase) :
    r'.criteria phase = r.criteria phase := by
  unfold criteria
  rw [segment_eq_of_origin h]

/-- How the criteria are joined is settled when the run is made. -/
theorem join_eq_of_origin (h : r'.origin = r.origin) (phase : Phase) :
    r'.join phase = r.join phase := by
  unfold join
  rw [segment_eq_of_origin h]

/-! ### Parts of a tick -/

/-- One state entered: the move is one that a tick can make, and the history gets it with the
tick. -/
def Enters (tick : Nat) (before after : SegmentState × List (SegmentState × Nat)) : Prop :=
  before.1.Follows after.1 ∧ after.2 = before.2 ++ [(after.1, tick)]

/-- What the **parts of a tick** make of a run: it is the same run at the same time, and has entered
some states one after another. -/
structure Onward (r r' : SegmentRun) : Prop where
  origin : r'.origin = r.origin
  ticks : r'.ticks = r.ticks
  elapsed : r'.elapsed = r.elapsed
  entered : Relation.ReflTransGen (Enters r.ticks) (r.state, r.history) (r'.state, r'.history)

/-- One part after another is onward again. -/
theorem Onward.trans {r'' : SegmentRun} (h : Onward r r') (h' : Onward r' r'') : Onward r r'' where
  origin := h'.origin.trans h.origin
  ticks := h'.ticks.trans h.ticks
  elapsed := h'.elapsed.trans h.elapsed
  entered := h.entered.trans (h.ticks ▸ h'.entered)

/-- A run that has begun stays begun. -/
theorem Onward.isBegun (h : Onward r r') (hr : r.state.isBegun) : r'.state.isBegun := by
  -- the last state entered decides, if any was
  rcases h.entered.cases_tail with heq | ⟨p, -, he⟩
  · rwa [show r'.state = r.state from congrArg Prod.fst heq]
  · exact he.1.isBegun

/-- A part of a tick that takes note of something and leaves the state alone. -/
theorem onward_noting (ho : r'.origin = r.origin) (ht : r'.ticks = r.ticks)
    (he : r'.elapsed = r.elapsed) (hs : r'.state = r.state) (hh : r'.history = r.history) :
    Onward r r' := by
  refine ⟨ho, ht, he, ?_⟩
  rw [hs, hh]

/-- Entering a state that follows is onward. -/
theorem onward_entered {s : SegmentState} (h : r.state.Follows s) : Onward r (r.entered s) :=
  ⟨rfl, rfl, rfl, .single ⟨h, rfl⟩⟩

variable {m env}

/-- However a tick opens, the segment has begun by then. -/
theorem Opens.onward {cs : List Call} (h : Opens m env r cs r') :
    Onward r r' ∧ r'.state.isBegun := by
  cases h with
  | begin hs => exact ⟨onward_entered (hs ▸ .begin), rfl⟩
  | wait hs => exact ⟨onward_noting rfl rfl rfl rfl rfl, by rw [hs]; rfl⟩
  | pass hs => exact ⟨⟨rfl, rfl, rfl, .single ⟨by rw [hs]; exact .dispatch, rfl⟩⟩, rfl⟩
  | missing hs => exact ⟨onward_noting rfl rfl rfl rfl rfl, by dsimp only; rw [hs]; rfl⟩
  | astray hs => exact ⟨⟨rfl, rfl, rfl, .single ⟨by rw [hs]; exact .dispatch, rfl⟩⟩, rfl⟩
  | unable hs => exact ⟨⟨rfl, rfl, rfl, .single ⟨.fail (by rw [hs]; rfl), rfl⟩⟩, rfl⟩
  | refuse aim => exact ⟨⟨rfl, rfl, rfl, .single ⟨.fail (by rw [aim.state]; rfl), rfl⟩⟩, rfl⟩
  | start aim => exact ⟨⟨rfl, rfl, rfl, .single ⟨by rw [aim.state]; exact .dispatch, rfl⟩⟩, rfl⟩
  | idle hs => exact ⟨onward_noting rfl rfl rfl rfl rfl, by rw [hs]; rfl⟩
  | poll hs => exact ⟨onward_noting rfl rfl rfl rfl rfl, by dsimp only; rw [hs]; rfl⟩

/-- Noting down what was seen is onward. -/
theorem Noted.onward (h : Noted r r') : Onward r r' := by
  obtain ⟨latched, lastUnmet, validationsTimedOut⟩ := h
  exact onward_noting rfl rfl rfl rfl rfl

/-- Noting down what was seen leaves the state alone. -/
theorem Noted.state_eq (h : Noted r r') : r'.state = r.state := by
  cases h
  rfl

/-- Judging criteria is onward. -/
theorem Judges.onward (h : Judges r r') : Onward r r' := by
  cases h with
  | rest h => exact h.onward
  | hold phase hs h =>
    refine h.onward.trans (onward_entered ?_)
    rw [h.state_eq, hs]
    exact phase.state_follows
  | fail hs => exact ⟨rfl, rfl, rfl, .single ⟨.fail hs, rfl⟩⟩

/-- The look at the time is onward for a segment that has begun. -/
theorem Closes.onward {cs : List Call} (h : Closes env r cs r') (hb : r.state.isBegun) :
    Onward r r' := by
  cases h with
  | inTime => exact onward_noting rfl rfl rfl rfl rfl
  | late hs =>
    exact ⟨rfl, rfl, rfl, .single ⟨.timeOut (SegmentState.isWaiting_of_isBegun hb hs), rfl⟩⟩

variable (m env)

/-! ### Calls -/

/-- **A run that has ended** takes no notice of ticks. -/
theorem tick_of_isTerminal (h : r.state.isTerminal) : r.tick m env = .still r env := if_pos h

/-- **A tick of a run that has not ended.** It counts, it is the same run, and it has begun. -/
theorem tick_course (h : ¬ r.state.isTerminal) :
    Onward (r.counted m.delta) (r.tick m env).subject ∧ (r.tick m env).subject.state.isBegun := by
  -- part after part, each of them onward
  obtain ⟨cs, ds, env₁, r₁, r₂, ho, -, hj, hc, -⟩ := tick_parts m env h
  obtain ⟨ho, hb⟩ := ho.onward
  have hc := hc.onward (hj.onward.isBegun hb)
  exact ⟨(ho.trans hj.onward).trans hc, hc.isBegun (hj.onward.isBegun hb)⟩

/-- A tick keeps what the run was made of. -/
theorem origin_tick : (r.tick m env).subject.origin = r.origin := by
  by_cases h : r.state.isTerminal
  · rw [tick_of_isTerminal m env h]
    rfl
  · exact (tick_course m env h).1.origin

theorem ticks_tick (h : ¬ r.state.isTerminal) : (r.tick m env).subject.ticks = r.ticks + 1 :=
  (tick_course m env h).1.ticks

/-- The run after it was skipped. -/
def skipped (r : SegmentRun) : SegmentRun :=
  if r.state = .pending then
    { r with state := .skipped, history := r.history ++ [(.skipped, r.ticks)] }
  else r

theorem origin_skipped : r.skipped.origin = r.origin := by
  unfold skipped
  split <;> rfl

/-- **Skipping** makes a run what `skipped` says, and leaves the environment as it is. -/
theorem skip_eq : (r.skip env).subject = r.skipped ∧ (r.skip env).env = env := by
  unfold skip skipped
  split <;> exact ⟨rfl, rfl⟩

/-- The run after it was **broken off** for a reason. -/
def cutOff (reason : String) (r : SegmentRun) : SegmentRun :=
  if r.state.isTerminal then r
  else if r.state = .pending then r.skipped
  else
    { r with
      detail := some reason
      state := .timedOut
      history := r.history ++ [(.timedOut, r.ticks)] }

/-- Breaking off keeps what the run was made of. -/
theorem origin_cutOff (reason : String) : (r.cutOff reason).origin = r.origin := by
  unfold cutOff
  split
  · rfl
  split
  · exact origin_skipped
  · rfl

/-- A run that was broken off has ended. -/
theorem isTerminal_cutOff (reason : String) : (r.cutOff reason).state.isTerminal := by
  unfold cutOff
  split
  · assumption
  split
  · next hp => rw [skipped, if_pos hp]; rfl
  · rfl

/-- **Breaking off** makes a run what `cutOff` says, whatever the environment is. -/
theorem abort_subject (reason : String) : (r.abort reason env).subject = r.cutOff reason := by
  unfold abort cutOff
  split
  · rfl
  split
  · exact (skip_eq env).1
  · dsimp only [Turn.subject_andThen, Turn.subject_map, Turn.subject_saying]
    rw [show ∀ r env, (releaseAll r env).subject = r from fun _ _ => rfl, (abortAction_made _ _).1]
    rfl

/-- The calls that breaking a run off makes. -/
def callsOff (r : SegmentRun) (env : Environment) : List Call :=
  if r.state.isWaiting then r.givingUp env else []

/-- Breaking off makes the calls that `callsOff` says. -/
theorem abort_made (reason : String) : env.Made (r.callsOff env) (r.abort reason env).env := by
  -- handlers are only called if there is something to give up, which takes a run that waits
  by_cases ht : r.state.isTerminal
  · have hw : ¬ r.state.isWaiting := SegmentState.not_isWaiting_of_isTerminal ht
    rw [callsOff, if_neg hw, abort, if_pos ht]
    exact .refl env
  by_cases hp : r.state = .pending
  · have hw : ¬ r.state.isWaiting := by rw [hp]; exact Bool.false_ne_true
    rw [callsOff, if_neg hw, abort, if_neg ht, if_pos hp, (skip_eq env).2]
    exact .refl env
  · have hw : r.state.isWaiting :=
      SegmentState.isWaiting_of_isBegun (SegmentState.isBegun_of_ne_pending ht hp) ht
    rw [callsOff, if_pos hw, abort, if_neg ht, if_neg hp]
    obtain ⟨-, hm⟩ := abortAction_made r env
    exact ⟨hm.registry, hm.calls⟩

/-- The calls that break a run off are among those that give its action up. -/
theorem callsOff_subset : r.callsOff env ⊆ r.givingUp env := by
  unfold callsOff
  split
  · exact List.Subset.refl _
  · exact List.nil_subset _

/-- Breaking a run off calls a handler for nothing but to make it give up. -/
theorem onlyAborts_abort (reason : String) : env.OnlyAborts (r.abort reason env).env := by
  refine ⟨r.callsOff env, (abort_made env reason).calls, fun c hc => ?_⟩
  obtain ⟨handler, -, rfl⟩ := mem_givingUp (callsOff_subset env hc)
  exact ⟨handler.1, r.number, rfl⟩

/-! ### The invariant -/

/-- The **invariant** of a segment's run: what has not been reached by a tick is as it was made,
except that it may have been skipped. -/
structure Sound (r : SegmentRun) : Prop where
  pending : r.state = .pending → r = r.origin
  skipped : r.state = .skipped → r = r.origin.skipped
  begun : r.state.isBegun → 0 < r.ticks

/-- The invariant holds of a run that was just made. -/
theorem Sound.of (s : Segment) (list : String) (number : Nat) (isRequired : Bool) :
    Sound (.of s list number isRequired) where
  pending := fun _ => rfl
  skipped := fun h => absurd h (by simp [SegmentRun.of])
  begun := fun h => absurd h (by simp [SegmentRun.of, SegmentState.isBegun])

/-- A run that has begun needs to have ticked, and no more. -/
theorem Sound.of_isBegun (hs : r.state.isBegun) (ht : 0 < r.ticks) : Sound r where
  pending := fun h => absurd hs (by rw [h]; exact Bool.false_ne_true)
  skipped := fun h => absurd hs (by rw [h]; exact Bool.false_ne_true)
  begun := fun _ => ht

/-- A tick keeps the invariant. -/
theorem Sound.tick (h : Sound r) : Sound (r.tick m env).subject := by
  by_cases ht : r.state.isTerminal
  · rw [tick_of_isTerminal m env ht]
    exact h
  · refine .of_isBegun (tick_course m env ht).2 ?_
    rw [ticks_tick m env ht]
    exact Nat.succ_pos _

/-- Skipping keeps the invariant. -/
theorem Sound.skipped_sound (h : Sound r) : Sound r.skipped := by
  by_cases hp : r.state = .pending
  · -- skipped from now on, so the two other clauses say nothing
    have hs : r.skipped.state = .skipped := by rw [SegmentRun.skipped, if_pos hp]
    refine ⟨fun hn => ?_, fun _ => ?_, fun hn => ?_⟩
    · rw [hs] at hn
      exact absurd hn (by decide)
    · rw [origin_skipped]
      exact congrArg SegmentRun.skipped (h.pending hp)
    · rw [hs] at hn
      exact absurd hn (by decide)
  · rw [show r.skipped = r from if_neg hp]
    exact h

/-- Breaking off keeps the invariant. -/
theorem Sound.cutOff (h : Sound r) (reason : String) : Sound (r.cutOff reason) := by
  unfold SegmentRun.cutOff
  split
  · exact h
  split
  · exact h.skipped_sound
  · -- a run that waits has ticked before
    next ht hp =>
    exact .of_isBegun rfl (h.begun (SegmentState.isBegun_of_ne_pending ht hp))

/-- Only what was not reached by a tick has not ticked. -/
theorem Sound.ticks_eq_zero_iff (h : Sound r) :
    r.ticks = 0 ↔ r.state = .pending ∨ r.state = .skipped := by
  constructor
  · intro ht
    -- what has begun has counted a tick
    refine SegmentState.not_isBegun_iff.mp fun hb => ?_
    have := h.begun hb
    omega
  · rintro (hs | hs)
    · rw [h.pending hs]
      rfl
    · rw [h.skipped hs]
      rfl

end SegmentRun

end Playtest
