import Playtest.Proofs.Criteria.Latches

/-!
# Criteria read as conditions

What criteria come to has three values, because a wait for validations may run out. A condition has
two. The two agree once it is said what a wait that has run out counts for:
`Criteria.holdsUnder late` reads a list of criteria as a condition in which every such wait counts
as `late`, and everything else as what it is.

`Criteria.status_iff` is the main result: of the two readings, the one that counts such waits as
failed says whether the criteria are met, the other one says whether they are not unmet, and where
the two differ the timeouts were decisive.

The proof never compares the three values with each other. `CriteriaStatus.reading` reads a status
the same way, and reading commutes with whatever evaluation does (`CriteriaStatus.reading_combine`,
`Criteria.reading_evaluateKeyed`).
-/

namespace Playtest

/-! ### Reading -/

/-- Whether a list of conditions holds under a join. Nothing at all holds. -/
def Join.holds : Join → List Bool → Bool
  | .all, bs => bs.all id
  | .any, bs => bs.isEmpty || bs.any id

/-- Whether a wait for validations has **run out**: some are still pending, and its time is up. -/
def View.ranOut (view : View) (timeout : Float) : Bool :=
  view.pendingValidations != 0 && (0.0 < timeout && timeout ≤ view.elapsed)

/-- A test read as a condition, in which a wait that has run out counts as `late`. -/
def Test.holds (late : Bool) (key : Key) (view : View) : Test → Bool
  | .validations timeout => if view.ranOut timeout then late else view.pendingValidations == 0
  | test => test.evaluate key view matches .ok .met

namespace Criteria

mutual

/-- A criteria read as a condition. A transient one that was met before holds. -/
def holds (late : Bool) (view : View) (key : Key) : Criteria → Bool
  | single _ t test => (t && view.latched.contains key) || test.holds late key view
  | group _ t join members =>
      (t && view.latched.contains key) || join.holds (holdsFrom late view key 0 members)

/-- Criteria from a position of their list on, each read as a condition. -/
def holdsFrom (late : Bool) (view : View) (parent : Key) :
    (position : Nat) → List Criteria → List Bool
  | _, [] => []
  | position, c :: cs =>
      holds late view (parent.member position) c :: holdsFrom late view parent (position + 1) cs

end

/-- **A list of criteria read as a condition**, in which waits that have run out count as `late`. -/
def holdsUnder (late : Bool) (view : View) (parent : Key) (cs : List Criteria) (join : Join) :
    Bool :=
  join.holds (holdsFrom late view parent 0 cs)

/-- The waits that have run out are **decisive**: the criteria hold if these count, and do not if
they do not. -/
def timeoutsDecide (view : View) (parent : Key) (cs : List Criteria) (join : Join) : Bool :=
  holdsUnder true view parent cs join && !holdsUnder false view parent cs join

end Criteria

namespace CriteriaStatus

variable {statuses : List CriteriaStatus} {late : Bool}

/-- A status read as a condition: one that was resolved by a timeout counts as `late`. -/
def reading (late : Bool) : CriteriaStatus → Bool
  | met => true
  | unmet _ => false
  | resolvedByTimeout => late

/-! ### Lists -/

/-- Under `All`, what statuses come to is read as all of them together. -/
theorem reading_combine_all (late : Bool) (statuses : List CriteriaStatus) :
    (combine .all statuses).reading late = (statuses.map (reading late)).all id := by
  rw [List.all_map]
  unfold combine
  dsimp only
  split
  · next reason rest hr =>
    -- the first reason is that of a status that is not met, and such a status does not hold
    have hmem : reason ∈ statuses.filterMap reason? := by
      rw [hr]
      exact List.mem_cons_self
    obtain ⟨s, hs, hreason⟩ := List.mem_filterMap.mp hmem
    have hfalse : s.reading late = false := by
      cases s with
      | unmet => rfl
      | met | resolvedByTimeout => cases hreason
    exact (List.all_eq_false.mpr ⟨s,
      hs, by rw [Function.comp_apply, hfalse]; exact Bool.false_ne_true⟩).symm
  · -- no reason is given, so nothing is unmet
    next hr =>
    have hnone : ∀ s ∈ statuses, s.reason? = none := List.filterMap_eq_nil_iff.mp hr
    split
    · -- some wait has run out, and the whole counts as much as that wait does
      next ht =>
      have ht := List.contains_iff_mem.mp ht
      cases late with
      | false => exact (List.all_eq_false.mpr ⟨_, ht, Bool.false_ne_true⟩).symm
      | true =>
        refine (List.all_eq_true.mpr fun s hs => ?_).symm
        cases s with
        | unmet => cases hnone _ hs
        | met | resolvedByTimeout => rfl
    · -- all are met
      next ht =>
      refine (List.all_eq_true.mpr fun s hs => ?_).symm
      cases s with
      | met => rfl
      | unmet => cases hnone _ hs
      | resolvedByTimeout => exact absurd (List.contains_iff_mem.mpr hs) ht

/-- Under `Any`, it is read as some of them, or as nothing at all. -/
theorem reading_combine_any (late : Bool) (statuses : List CriteriaStatus) :
    (combine .any statuses).reading late =
      ((statuses.map (reading late)).isEmpty || (statuses.map (reading late)).any id) := by
  rw [List.any_map, List.isEmpty_map]
  unfold combine
  dsimp only
  split
  · -- one of them is met, or there are none
    next hm =>
    rcases Bool.or_eq_true_iff.mp hm with hempty | hm
    · rw [hempty]
      rfl
    · have hany : statuses.any (id ∘ reading late) = true :=
        List.any_eq_true.mpr ⟨met, List.contains_iff_mem.mp hm, rfl⟩
      rw [hany, Bool.or_true]
      rfl
  · -- none is met, so the waits that have run out decide
    next hm =>
    obtain ⟨hempty, hm⟩ := Bool.or_eq_false_iff.mp (Bool.eq_false_iff.mpr hm)
    rw [hempty, Bool.false_or]
    split
    · next ht =>
      have ht := List.contains_iff_mem.mp ht
      cases late with
      | true => exact (List.any_eq_true.mpr ⟨_, ht, rfl⟩).symm
      | false =>
        refine (List.any_eq_false.mpr fun s hs => ?_).symm
        cases s with
        | met => exact absurd (List.contains_iff_mem.mpr hs) (by rw [hm]; exact Bool.false_ne_true)
        | unmet | resolvedByTimeout => exact Bool.false_ne_true
    · next ht =>
      -- neither met nor resolved, so that all are unmet
      refine (List.any_eq_false.mpr fun s hs => ?_).symm
      cases s with
      | met => exact absurd (List.contains_iff_mem.mpr hs) (by rw [hm]; exact Bool.false_ne_true)
      | unmet => exact Bool.false_ne_true
      | resolvedByTimeout => exact absurd (List.contains_iff_mem.mpr hs) ht

/-- **Reading commutes with putting statuses together.** -/
theorem reading_combine (join : Join) (late : Bool) (statuses : List CriteriaStatus) :
    (combine join statuses).reading late = join.holds (statuses.map (reading late)) := by
  cases join with
  | all => exact reading_combine_all late statuses
  | any => exact reading_combine_any late statuses

/-- The two readings of a status tell it apart from the other two. -/
theorem eq_iff_reading (status : CriteriaStatus) :
    (status = met ↔ status.reading false = true) ∧
      ((∃ reason, status = unmet reason) ↔ status.reading true = false) ∧
        (status = resolvedByTimeout ↔ (status.reading true && !status.reading false) = true) := by
  cases status <;> simp [reading]

end CriteriaStatus

/-! ### Tests -/

namespace Test

variable {key : Key} {view : View} {status : CriteriaStatus} {late : Bool}

/-- A wait for validations is read as `late` if it has run out, and as what it is otherwise. -/
theorem reading_evaluateValidations (timeout : Float) (view : View) (late : Bool) :
    (evaluateValidations timeout view).reading late =
      if view.ranOut timeout then late else view.pendingValidations == 0 := by
  unfold evaluateValidations View.ranOut
  by_cases hp : view.pendingValidations = 0
  · rw [if_pos hp, hp]
    rfl
  · -- some are pending, so it is a matter of the time
    have hpending : (view.pendingValidations != 0) = true := bne_iff_ne.mpr hp
    rw [if_neg hp, hpending, Bool.true_and]
    split
    · rfl
    · exact (beq_eq_false_iff_ne.mpr hp).symm

/-- Nothing but a wait for validations runs out. -/
theorem evaluate_ne_resolvedByTimeout {test : Test} (htest : ∀ timeout, test ≠ .validations timeout)
    (h : test.evaluate key view = .ok status) : status ≠ .resolvedByTimeout := by
  rintro rfl
  -- test by test: only the one of validations has the third outcome
  cases test with
  | validations timeout => exact htest timeout rfl
  | void => cases h
  | path isPartial test =>
    have h := Except.ok.inj h
    unfold PathTest.evaluate at h
    dsimp only at h
    split at h
    · cases h
    split at h
    · cases h
    split at h <;> cases h
  | value test =>
    have h := Except.ok.inj h
    unfold ValueTest.evaluate at h
    dsimp only at h
    split at h
    · cases h
    split at h <;> cases h
  | vision kind query =>
    have h := Except.ok.inj h
    unfold evaluateVision at h
    split at h <;> cases h
  | actionComplete =>
    have h := Except.ok.inj h
    split at h <;> cases h
  | custom name args =>
    unfold evaluate at h
    dsimp only at h
    split at h
    · cases h
    · have h := Except.ok.inj h
      split at h <;> cases h

/-- **A test comes to what it is read as.** -/
theorem reading_evaluate {test : Test} (late : Bool) (h : test.evaluate key view = .ok status) :
    status.reading late = test.holds late key view := by
  -- a wait has two readings, and any other test only one
  by_cases htest : ∃ timeout, test = .validations timeout
  · obtain ⟨timeout, rfl⟩ := htest
    obtain rfl := Except.ok.inj h
    exact reading_evaluateValidations timeout view late
  · -- what is no wait is met or unmet, and both are read as what they are
    rw [not_exists] at htest
    have hne := evaluate_ne_resolvedByTimeout htest h
    have hholds : test.holds late key view = (test.evaluate key view matches .ok .met) := by
      cases test with
      | validations timeout => exact absurd rfl (htest timeout)
      | _ => rfl
    rw [hholds, h]
    cases status with
    | met | unmet => rfl
    | resolvedByTimeout => exact absurd rfl hne

end Test

/-! ### Criteria -/

namespace Criteria

variable {view : View} {key parent : Key} {cs : List Criteria} {status : CriteriaStatus}

mutual

/-- **A criteria comes to what it is read as**, if it can be evaluated. -/
theorem reading_evaluateKeyed (late : Bool) (view : View) (key : Key) :
    ∀ (c : Criteria) (n : Notes) {status : CriteriaStatus},
      (evaluateKeyed view key c n).1 = .ok status →
      status.reading late = holds late view key c
  | single v t test, n, status, h => by
    unfold evaluateKeyed at h
    unfold holds
    split at h
    · cases h
    split at h
    · -- it was latched, so it is met and holds
      next hl =>
      obtain rfl := Except.ok.inj h
      rw [hl, Bool.true_or]
      rfl
    · -- it is looked at, and comes to what its test comes to
      next hl =>
      rw [Bool.eq_false_iff.mpr hl, Bool.false_or]
      cases he : test.evaluate key view with
      | error e =>
        rw [he] at h
        cases h
      | ok s =>
        rw [he] at h
        obtain rfl := Except.ok.inj h
        exact Test.reading_evaluate late he
  | group v t join members, n, status, h => by
    unfold evaluateKeyed at h
    unfold holds
    split at h
    · cases h
    split at h
    · next hl =>
      obtain rfl := Except.ok.inj h
      rw [hl, Bool.true_or]
      rfl
    · next hl =>
      -- the group comes to what its members come to together, and is read so, too
      rw [Bool.eq_false_iff.mpr hl, Bool.false_or]
      rcases hfrom : evaluateFrom view key 0 members n with ⟨_ | statuses, notes⟩
      · rw [hfrom] at h
        cases h
      · rw [hfrom] at h
        obtain rfl := Except.ok.inj h
        have hmembers := reading_evaluateFrom late view key 0 members n (congrArg Prod.fst hfrom)
        rw [CriteriaStatus.reading_combine, hmembers]

/-- **Members come to what they are read as**, one by one. -/
theorem reading_evaluateFrom (late : Bool) (view : View) (parent : Key) :
    ∀ (position : Nat) (cs : List Criteria) (n : Notes) {statuses : List CriteriaStatus},
      (evaluateFrom view parent position cs n).1 = .ok statuses →
        statuses.map (CriteriaStatus.reading late) = holdsFrom late view parent position cs
  | _, [], _, statuses, h => by
    unfold evaluateFrom at h
    obtain rfl := Except.ok.inj h
    unfold holdsFrom
    rfl
  | position, c :: cs, n, statuses, h => by
    unfold evaluateFrom at h
    -- nothing has failed, neither this one nor any of those behind it
    rcases hfirst : evaluateKeyed view (parent.member position) c n with ⟨_ | status, notes⟩
    · rw [hfirst] at h
      cases h
    rw [hfirst] at h
    dsimp only at h
    rcases hrest : evaluateFrom view parent (position + 1) cs notes with ⟨_ | rest, notes'⟩
    · rw [hrest] at h
      cases h
    rw [hrest] at h
    obtain rfl := Except.ok.inj h
    have hc := reading_evaluateKeyed late view (parent.member position) c n
        (congrArg Prod.fst hfirst)
    have hcs := reading_evaluateFrom late view parent (position + 1) cs notes
        (congrArg Prod.fst hrest)
    unfold holdsFrom
    rw [List.map_cons, hc, hcs]

end

/-- A list of criteria comes to what it is read as. -/
theorem reading_evaluateAll {join : Join} (late : Bool)
    (h : (evaluateAll view parent cs join).1 = .ok status) :
    status.reading late = holdsUnder late view parent cs join := by
  unfold evaluateAll at h
  rcases hfrom : evaluateFrom view parent 0 cs .none with ⟨_ | statuses, notes⟩
  · rw [hfrom] at h
    cases h
  -- no member has failed, so each has its reading
  rw [hfrom] at h
  obtain rfl := Except.ok.inj h
  have hmembers := reading_evaluateFrom late view parent 0 cs .none (congrArg Prod.fst hfrom)
  unfold holdsUnder
  rw [CriteriaStatus.reading_combine, hmembers]

/-- **The two readings of criteria tell their status.** They are met if they hold without the waits
that have run out, unmet if they do not hold even with these, and otherwise it is the timeouts that
decide. -/
theorem status_iff {join : Join} (h : (evaluateAll view parent cs join).1 = .ok status) :
    (status = .met ↔ holdsUnder false view parent cs join = true) ∧
      ((∃ reason, status = .unmet reason) ↔ holdsUnder true view parent cs join = false) ∧
        (status = .resolvedByTimeout ↔ timeoutsDecide view parent cs join = true) := by
  unfold timeoutsDecide
  -- both readings are of the same status, and they tell it apart
  rw [← reading_evaluateAll false h, ← reading_evaluateAll true h]
  exact status.eq_iff_reading

end Criteria

end Playtest
