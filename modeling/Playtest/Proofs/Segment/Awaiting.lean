import Playtest.Proofs.Segment.Course
import Playtest.Proofs.Vision.Outstanding

/-!
# What a segment awaits

A segment that waits for the criteria of a phase **awaits** the replies to the vision criteria among
them, and a segment in any other state awaits nothing (`SegmentRun.Awaits`). None of the calls that
a segment's run can get leaves a stray request behind: `SegmentRun.noStrays_tick`,
`SegmentRun.noStrays_abort` and `SegmentRun.noStrays_skip`.

In the middle of a tick this is not true. A segment that fails awaits nothing any more, and its
requests are only abandoned at the end of the tick. What is true there is said by
`SegmentRun.Covers`: a segment that is over answers for everything below its phases.
-/

namespace Playtest

open Vision Vision.Coordinator

namespace SegmentRun

variable {m : Moment} {env env' : Environment} {r r' : SegmentRun} {cs : List Call} {key : Key}

/-- The segment **awaits** a reply under a key: it waits for the criteria of a phase, and the key is
the one of a vision criteria among them. -/
def Awaits (r : SegmentRun) (key : Key) : Prop :=
  ∃ phase : Phase, r.state = phase.state ∧
    ∃ c, (key, c) ∈ Criteria.withKeys (r.key phase) (r.criteria phase) ∧ (query? c).isSome

/-- What is awaited lies below a phase that the segment waits for. -/
theorem Awaits.below (h : r.Awaits key) :
    ∃ phase : Phase, r.state = phase.state ∧ Key.Below (r.key phase) key := by
  obtain ⟨phase, hs, c, hmem, -⟩ := h
  exact ⟨phase, hs, Criteria.below_of_mem_withKeys hmem⟩

/-- Nothing is awaited in a state in which no criteria are. -/
theorem not_awaits (hs : ∀ phase : Phase, r.state ≠ phase.state) : ¬ r.Awaits key := by
  rintro ⟨phase, heq, -⟩
  exact hs phase heq

theorem not_awaits_of_isTerminal (h : r.state.isTerminal) : ¬ r.Awaits key := by
  refine not_awaits fun phase hs => phase.state_not_isTerminal ?_
  rw [← hs]
  exact h

/-- What is awaited is a matter of the state and of what the run was made of. -/
theorem awaits_iff_of_eq (hs : r'.state = r.state) (ho : r'.origin = r.origin) :
    r'.Awaits key ↔ r.Awaits key := by
  simp only [Awaits, hs, key_eq_of_origin ho, criteria_eq_of_origin ho]

/-! ### In the middle of a tick -/

/-- The segment **answers for** a key: it awaits it, or it is over and the key is one of its own. -/
def Covers (r : SegmentRun) (key : Key) : Prop :=
  r.Awaits key ∨ r.state.isTerminal ∧ ∃ phase, Key.Below (r.key phase) key

/-- A segment that ends goes on to answer for what it has awaited. -/
theorem Covers.ended (h : r.Covers key) (ho : r'.origin = r.origin) (ht : r'.state.isTerminal) :
    r'.Covers key := by
  have hbelow : ∃ phase, Key.Below (r.key phase) key := by
    rcases h with h | ⟨-, hbelow⟩
    · obtain ⟨phase, -, hbelow⟩ := h.below
      exact ⟨phase, hbelow⟩
    · exact hbelow
  refine .inr ⟨ht, ?_⟩
  obtain ⟨phase, hbelow⟩ := hbelow
  exact ⟨phase, by rw [key_eq_of_origin ho]; exact hbelow⟩

/-- As long as the segment has not ended, it answers for just what it awaits. -/
theorem covers_iff_of_not_isTerminal (ht : ¬ r.state.isTerminal) : r.Covers key ↔ r.Awaits key :=
  ⟨fun h => h.resolve_right fun h => ht h.1, .inl⟩

/-- Sending requests makes nothing outstanding that is not awaited. -/
theorem noStrays_asking (phase : Phase) (hs : r.state = phase.state) :
    NoStrays r.Awaits env.vision r.Awaits (r.asking phase m env).vision := by
  intro key hout hnone
  rcases expects_prepare hout with ⟨c, hmem, hvision⟩ | hout
  · exact absurd ⟨phase, hs, c, hmem, hvision⟩ hnone
  · exact ⟨hout, hnone⟩

/-- Whoever does not wait for the criteria of a phase any more has nothing left to await, once the
requests of the phase were abandoned. -/
theorem noStrays_letting (phase : Phase) (hs : r.state = phase.state) (after : Key → Prop) :
    NoStrays r.Awaits env.vision after (r.letting phase env).vision := by
  intro key hout _
  -- two phases with one state are one phase, so the key is below what was abandoned
  obtain ⟨hout, hbelow⟩ := expects_release hout
  refine ⟨hout, fun hawaits => hbelow ?_⟩
  obtain ⟨phase', hs', hkey⟩ := hawaits.below
  exact Phase.eq_of_state_eq (hs'.symm.trans hs) ▸ hkey

theorem noStrays_opens (ho : Opens m env r cs r') (env' : Environment)
    (hv : env'.vision = env.vision) : NoStrays r.Awaits env.vision r'.Covers env'.vision := by
  -- a segment that has not come to its criteria awaits nothing
  have ended : ∀ {r' : SegmentRun}, r.state = .executing ∨ r.state = .pending →
      NoStrays r.Awaits env.vision r'.Covers env'.vision := by
    intro r' hs
    refine .of_imp (by rw [hv]) fun key hawaits => absurd hawaits (not_awaits ?_)
    rintro (_ | _) <;> rcases hs with hs | hs <;> rw [hs] <;> decide
  -- and one that waits for them goes on to await what it has awaited
  have still : r'.state = r.state → r'.origin = r.origin →
      NoStrays r.Awaits env.vision r'.Covers env'.vision := by
    intro hs hr
    exact .of_imp (by rw [hv]) fun key hawaits => .inl ((awaits_iff_of_eq hs hr).mpr hawaits)
  cases ho with
  | wait | idle | poll => exact still rfl rfl
  | begin hs => exact ended (.inr hs)
  | pass hs | missing hs | astray hs | unable hs => exact ended (.inl hs)
  | refuse aim | start aim => exact ended (.inl aim.state)

theorem noStrays_inspects (hi : Inspects m env r r' env') :
    NoStrays r.Covers env.vision r'.Covers env'.vision := by
  have origin : r'.origin = r.origin := hi.judges.1.onward.origin
  -- a segment that looks at criteria has not ended, and so answers for what it awaits
  have waiting : ∀ phase : Phase, r.state = phase.state → ∀ key, r.Covers key → r.Awaits key := by
    intro phase hs key
    exact (covers_iff_of_not_isTerminal (hs ▸ phase.state_not_isTerminal)).mp
  have asked : ∀ phase : Phase, r.state = phase.state →
      NoStrays r.Covers env.vision r.Awaits (r.asking phase m env).vision := by
    intro phase hs
    exact NoStrays.trans (.of_imp rfl (waiting phase hs)) (noStrays_asking phase hs)
  cases hi with
  | rest => exact .refl _ _
  | tooNew => exact .of_imp rfl fun key h => h.ended origin rfl
  | fail phase hs =>
    refine (asked phase hs).trans (.of_imp rfl fun key hawaits => ?_)
    exact Covers.ended (.inl hawaits) origin rfl
  | hold phase hs => exact (asked phase hs).trans (noStrays_letting phase hs _)
  | wait phase hs =>
    refine (asked phase hs).trans (.of_imp rfl fun key hawaits => .inl ?_)
    exact (awaits_iff_of_eq rfl origin).mpr hawaits

/-- The look at the time leaves no strays. -/
theorem noStrays_closes (hc : Closes env r cs r') (env' : Environment)
    (hv : env'.vision = env.vision) : NoStrays r.Covers env.vision r'.Covers env'.vision := by
  cases hc with
  | inTime => exact .of_imp (by rw [hv]) fun _ h => h
  | late => exact .of_imp (by rw [hv]) fun key h => h.ended rfl rfl

/-- Abandoning everything of a segment leaves nothing below its phases. -/
theorem expects_releaseAll (h : (releaseAll r env).env.vision.Expects key) :
    env.vision.Expects key ∧ ¬ ∃ phase, Key.Below (r.key phase) key := by
  obtain ⟨hout, hcompletion⟩ := expects_release h
  obtain ⟨hout, hentry⟩ := expects_release hout
  refine ⟨hout, ?_⟩
  rintro ⟨_ | _, hbelow⟩
  · exact hentry hbelow
  · exact hcompletion hbelow

/-- At the end of a tick, what is only answered for is abandoned. -/
theorem noStrays_releaseIfOver (r : SegmentRun) (env : Environment) :
    NoStrays r.Covers env.vision r.Awaits (releaseIfOver r env).env.vision := by
  unfold releaseIfOver
  split
  · next ht =>
    intro key hout hnone
    obtain ⟨hout, hbelow⟩ := expects_releaseAll hout
    exact ⟨hout, fun hcovers => hcovers.elim hnone fun h => hbelow h.2⟩
  · next ht => exact .of_imp rfl fun key => (covers_iff_of_not_isTerminal ht).mp

/-! ### Whole calls -/

/-- **A tick leaves no strays.** -/
theorem noStrays_tick (r : SegmentRun) (m : Moment) (env : Environment) :
    NoStrays r.Awaits env.vision (r.tick m env).subject.Awaits (r.tick m env).env.vision := by
  by_cases ht : r.state.isTerminal
  · rw [tick_of_isTerminal m env ht]
    exact .refl _ _
  · obtain ⟨cs, ds, env₂, r₁, r₂, ho, hi, hc, henv⟩ := tick_stages m env ht
    -- part by part, until the last one abandons what is only covered by then
    have hcounted : NoStrays r.Awaits env.vision (r.counted m.delta).Awaits env.vision :=
      .of_imp rfl fun key => (awaits_iff_of_eq rfl rfl).mpr
    have hopened := hcounted.trans (noStrays_opens ho (env.calling cs) rfl)
    have hlooked := hopened.trans (noStrays_inspects hi)
    have hclosed := hlooked.trans (noStrays_closes hc (env₂.calling ds) rfl)
    rw [henv]
    exact hclosed.trans (noStrays_releaseIfOver _ _)

/-- A segment that is skipped awaits what it has awaited, which is nothing. -/
theorem awaits_skipped_iff : r.skipped.Awaits key ↔ r.Awaits key := by
  unfold skipped
  split
  · next hp =>
    have hbefore : ¬ r.Awaits key := not_awaits (by rw [hp]; rintro (_ | _) <;> decide)
    exact iff_of_false (not_awaits_of_isTerminal rfl) hbefore
  · rfl

theorem noStrays_skip (r : SegmentRun) (env : Environment) :
    NoStrays r.Awaits env.vision (r.skip env).subject.Awaits (r.skip env).env.vision := by
  rw [(skip_eq env).1, (skip_eq env).2]
  exact .of_imp rfl fun key => awaits_skipped_iff.mpr

/-- Giving an action up sends no requests and abandons none. -/
theorem abortAction_vision (r : SegmentRun) (env : Environment) :
    (abortAction r env).env.vision = env.vision := by
  rw [(abortAction_calling r env).2]
  rfl

/-- **Breaking a segment off leaves no strays.** -/
theorem noStrays_abort (reason : String) (r : SegmentRun) (env : Environment) :
    NoStrays r.Awaits env.vision (r.abort reason env).subject.Awaits
      (r.abort reason env).env.vision := by
  unfold abort
  split
  · exact .refl _ _
  split
  · exact noStrays_skip r env
  · intro key hout _
    -- whatever the segment has awaited lies below one of its phases
    have hsub : (abortAction r env).subject = r := (abortAction_calling r env).1
    have hout : (releaseAll (abortAction r env).subject
        (abortAction r env).env).env.vision.Expects key := hout
    obtain ⟨hout, hbelow⟩ := expects_releaseAll hout
    rw [abortAction_vision] at hout
    refine ⟨hout, fun hawaits => hbelow ?_⟩
    obtain ⟨phase, -, hkey⟩ := hawaits.below
    exact ⟨phase, hsub.symm ▸ hkey⟩

end SegmentRun

end Playtest
