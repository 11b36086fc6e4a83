import Playtest.Proofs.Criteria.ByPlace

/-!
# Errors of evaluation

Two things can be wrong with a criteria: it may need a later version of the format, or ask for a
predicate that nobody has registered (`Criteria.Faulty`). Evaluation fails just if it meets such a
criteria, and as all criteria are evaluated whatever comes of the others, the only thing that keeps
it from meeting one is a transient criteria above it that was latched before (`Criteria.Live`).

The main result is `Criteria.error_is_first_fault`: the error is that of the first criteria in the
order of a visit that is live and faulty. It follows that errors depend on nothing but what is
latched and which predicates are registered.

Latched criteria are where a walk stops, and so the criteria that evaluation looks at are those of a
walk (`Criteria.failure?_evaluateAt`). The first fault on a walk is the one at the least place,
since a walk goes through places in their order (`findSome?_eq_some_iff_least`).
-/

namespace Playtest

/-- The error that a computation ends with. -/
def failure? {ε α : Type} : Except ε α → Option ε
  | .error e => some e
  | .ok _ => none

/-- The failure of a computation is its error. -/
theorem failure?_eq_some_iff {ε α : Type} {x : Except ε α} {e : ε} :
    failure? x = some e ↔ x = .error e := by
  cases x with
  | error e' => simp [failure?]
  | ok a => simp [failure?]

/-- **In a list whose places increase, the first hit is the one before whose place there is no
other.** -/
theorem findSome?_eq_some_iff_least {α β : Type} {l : List (Place × α)} {f : Place × α → Option β}
    {b : β} (hl : l.Pairwise fun x y => x.1 < y.1) :
    l.findSome? f = some b ↔
      ∃ x ∈ l, f x = some b ∧ ∀ y ∈ l, (f y).isSome = true → ¬ y.1 < x.1 := by
  induction l with
  | nil => exact iff_of_false (fun h => by cases h) fun ⟨x, hx, _⟩ => List.not_mem_nil hx
  | cons first others ih =>
    obtain ⟨hfirst, hothers⟩ := List.pairwise_cons.mp hl
    rw [List.findSome?_cons]
    cases hf : f first with
    -- the first one is a hit, so it is the one that is found
    | some b' =>
      constructor
      · rintro h
        refine ⟨first, List.mem_cons_self, hf.trans h, fun y hy _ => ?_⟩
        rcases List.mem_cons.mp hy with rfl | hy
        · exact List.lt_irrefl _
        · exact List.lt_asymm (hfirst y hy)
      · rintro ⟨x, hx, hb, hleast⟩
        rcases List.mem_cons.mp hx with rfl | hx
        · exact hf.symm.trans hb
        · -- the first one is at a lesser place
          exact absurd (hfirst x hx) (hleast first List.mem_cons_self (by rw [hf]; rfl))
    -- the first one is no hit, so it is found among the others or not at all
    | none =>
      have hskip : ∀ y, (f y).isSome = true → y ≠ first := by
        rintro y hy rfl
        rw [hf] at hy
        exact Bool.false_ne_true hy
      refine (ih hothers).trans ⟨?_, ?_⟩
      · rintro ⟨x, hx, hb, hleast⟩
        refine ⟨x, List.mem_cons_of_mem _ hx, hb, fun y hy hsome => ?_⟩
        exact hleast y ((List.mem_cons.mp hy).resolve_left (hskip y hsome)) hsome
      · rintro ⟨x, hx, hb, hleast⟩
        have hne : x ≠ first := hskip x (by rw [hb]; rfl)
        exact ⟨x, (List.mem_cons.mp hx).resolve_left hne, hb,
          fun y hy => hleast y (List.mem_cons_of_mem _ hy)⟩

/-! ### Faults -/

namespace Test

/-- What is wrong with a test. -/
def fault? (view : View) : Test → Option EvaluationError
  | custom name _ => if (view.predicate name).isNone then some (.unknownPredicate name) else none
  | void | path _ _ | value _ | vision _ _ | validations _ | actionComplete => none

/-- A test fails with what is wrong with it, whatever was replied. -/
theorem failure?_evaluateWith (reply : Option Vision.Reply) (view : View) (t : Test) :
    failure? (t.evaluateWith reply view) = t.fault? view := by
  cases t with
  | custom name args =>
    unfold evaluateWith evaluate fault?
    dsimp only
    cases view.predicate name <;> rfl
  | _ => rfl

end Test

namespace Criteria

/-- Whether a criteria is **passed over**: it is transient and was latched before. -/
def passed (known : Known) (place : Place) (c : Criteria) : Bool :=
  c.isTransient && known.isLatched place

/-- What is wrong with what a criteria asks for, its members apart. -/
def testFault? (view : View) : Criteria → Option EvaluationError
  | single _ _ test => test.fault? view
  | group _ _ _ _ => none

/-- What is wrong with a criteria itself. -/
def fault? (view : View) (known : Known) (place : Place) (c : Criteria) : Option EvaluationError :=
  if Version.current < c.apiVersion then some (.unsupported c.kind c.apiVersion)
  else if passed known place c then none
  else testFault? view c

section Faults

variable {view : View} {known : Known} {place : Place} {c : Criteria}

/-- A later version is wrong in any case. -/
theorem fault?_of_later (hv : Version.current < c.apiVersion) :
    fault? view known place c = some (.unsupported c.kind c.apiVersion) := if_pos hv

/-- Nothing else can be wrong with what is passed over. -/
theorem fault?_of_passed (hv : ¬ Version.current < c.apiVersion)
    (hp : passed known place c = true) :
    fault? view known place c = none := by
  unfold fault?
  rw [if_neg hv, if_pos hp]

/-- Of what is looked at, the test may be wrong. -/
theorem fault?_of_looked (hv : ¬ Version.current < c.apiVersion)
    (hp : passed known place c = false) :
    fault? view known place c = testFault? view c := by
  unfold fault?
  rw [if_neg hv, hp, if_neg Bool.false_ne_true]

/-- In evaluation the version comes first, then the latch, and then what is inside. -/
theorem failure?_evaluateAt_eq (view : View) (known : Known) (c : Criteria) :
    failure? (evaluateAt view known c) =
      if Version.current < c.apiVersion then some (.unsupported c.kind c.apiVersion)
      else if passed known [] c then none
      else failure? (evaluateOwn view known c) := by
  rw [evaluateAt_eq]
  unfold passed
  by_cases hv : Version.current < c.apiVersion
  · rw [if_pos hv, if_pos hv]
    rfl
  -- the version is not too late; what is latched is not looked into
  by_cases hp : (c.isTransient && known.isLatched []) = true
  · rw [if_neg hv, if_neg hv, if_pos hp, if_pos hp]
    rfl
  · rw [if_neg hv, if_neg hv, if_neg hp, if_neg hp]
    rcases evaluateOwn view known c with _ | ⟨status, places⟩ <;> rfl

end Faults

mutual

/-- **Evaluation fails with the first fault on a walk** that stops at what is passed over. -/
theorem failure?_evaluateAt (view : View) : ∀ (c : Criteria) (known : Known),
    failure? (evaluateAt view known c) =
      (walk (passed known) c).findSome? fun e => fault? view known e.1 e.2
  | single v t test, known => by
    have htest : failure? (evaluateOwn view known (single v t test)) = test.fault? view := by
      rw [← test.failure?_evaluateWith (known.reply []) view, evaluateOwn]
      cases test.evaluateWith (known.reply []) view <;> rfl
    rw [failure?_evaluateAt_eq, htest, walk, List.findSome?_singleton]
    rfl
  | group v t join members, known => by
    have hmembers := failure?_evaluateMembers view members known 0
    have hown : failure? (evaluateOwn view known (group v t join members)) =
        failure? (evaluateMembers view known 0 members) := by
      rw [evaluateOwn]
      rcases evaluateMembers view known 0 members with _ | ⟨statuses, places⟩ <;> rfl
    -- the group itself is in front of its members, on the walk and in evaluation
    rw [failure?_evaluateAt_eq, hown, hmembers, walk, List.findSome?_cons]
    by_cases hv : Version.current < (group v t join members).apiVersion
    · rw [if_pos hv, fault?_of_later hv]
    rw [if_neg hv]
    by_cases hp : passed known [] (group v t join members) = true
    · -- neither the walk nor evaluation goes inside
      rw [if_pos hp, if_pos hp, fault?_of_passed hv hp]
      rfl
    · -- the group has no test, so what is wrong is wrong with a member
      rw [if_neg hp, if_neg hp, fault?_of_looked hv (Bool.eq_false_iff.mpr hp)]
      rfl

/-- **Members fail with the first fault on a walk through them**, from any position on. -/
theorem failure?_evaluateMembers (view : View) : ∀ (cs : List Criteria) (known : Known)
    (position : Nat), failure? (evaluateMembers view known position cs) =
      (walkFrom (passed known) position cs).findSome? fun e => fault? view known e.1 e.2
  | [], known, position => by
    unfold evaluateMembers walkFrom
    rfl
  | c :: cs, known, position => by
    have hfirst := failure?_evaluateAt view c (known.inside position)
    have hothers := failure?_evaluateMembers view cs known (position + 1)
    unfold evaluateMembers walkFrom
    rw [List.findSome?_append, List.findSome?_map, ← hothers]
    change _ = ((walk (passed (known.inside position)) c).findSome?
      fun e => fault? view (known.inside position) e.1 e.2).or _
    rw [← hfirst]
    -- the members behind this one are only evaluated if it does not fail
    rcases evaluateAt view (known.inside position) c with e | ⟨status, first⟩
    · rfl
    · rcases evaluateMembers view known (position + 1) cs with e | ⟨others, rest⟩ <;> rfl

end

/-! ### Live criteria -/

variable {view view' : View} {parent key : Key} {cs : List Criteria} {c : Criteria} {place : Place}
  {e : EvaluationError} {join join' : Join}

/-- A place is **live** if no criteria above it is transient and was latched before. -/
def Live (view : View) (parent : Key) (cs : List Criteria) (place : Place) : Prop :=
  ∀ above c, above <+: place → above ≠ place → lookup? cs above = some c →
    ¬ (c.isTransient = true ∧ parent.along above ∈ view.latched)

/-- What is **wrong with a criteria** under a key. A later version is wrong in any case, and an
unknown predicate unless the criteria was latched before. -/
inductive Faulty (view : View) (key : Key) : Criteria → EvaluationError → Prop
  | unsupported {c : Criteria} (h : Version.current < c.apiVersion) :
      Faulty view key c (.unsupported c.kind c.apiVersion)
  | unknownPredicate {v : Version} {t : Bool} {name : String} {args : Json.Value}
      (hv : ¬ Version.current < v)
      (hl : ¬ (t = true ∧ key ∈ view.latched)) (h : view.predicate name = none) :
      Faulty view key (.single v t (.custom name args)) (.unknownPredicate name)

/-- There is a **live fault** at a place. -/
def FaultAt (view : View) (parent : Key) (cs : List Criteria) (place : Place)
    (e : EvaluationError) : Prop :=
  ∃ c, lookup? cs place = some c ∧ Live view parent cs place ∧ Faulty view (parent.along place) c e

/-- What is not passed over is not transient or not latched. -/
theorem passed_eq_false_iff :
    passed (view.known parent) place c = false ↔
      ¬ (c.isTransient = true ∧ parent.along place ∈ view.latched) := by
  rw [← Bool.not_eq_true, passed, Bool.and_eq_true_iff]
  exact not_congr (and_congr_right' List.contains_iff_mem)

/-- What is found to be wrong with a criteria is what is wrong with it. -/
theorem fault?_eq_some_iff :
    fault? view.blind (view.known parent) place c = some e ↔
      Faulty view (parent.along place) c e := by
  constructor
  · intro h
    by_cases hv : Version.current < c.apiVersion
    · rw [fault?_of_later hv] at h
      exact Option.some.inj h ▸ .unsupported hv
    cases hp : passed (view.known parent) place c with
    | true =>
      rw [fault?_of_passed hv hp] at h
      cases h
    | false =>
      rw [fault?_of_looked hv hp] at h
      -- only a test can be at fault now, and only one that asks for a predicate
      cases c with
      | group => cases h
      | single v t test =>
        cases test with
        | custom name args =>
          obtain ⟨hname, he⟩ := Option.ite_none_right_eq_some.mp h
          cases he
          exact .unknownPredicate hv (passed_eq_false_iff.mp hp)
            (Option.isNone_iff_eq_none.mp hname)
        | _ => cases h
  · -- conversely, each of the two faults is found in its own way
    intro h
    cases h with
    | unsupported hv => exact fault?_of_later hv
    | @unknownPredicate v t name args hv hl hname =>
      have hp : passed (view.known parent) place (single v t (.custom name args)) = false :=
        passed_eq_false_iff.mpr hl
      rw [fault?_of_looked (c := single v t (.custom name args)) hv hp]
      exact if_pos (Option.isNone_iff_eq_none.mpr hname)

/-- A place that no walk stops above is live. -/
theorem clear_passed_iff : Clear (passed (view.known parent)) (lookup? cs) place ↔
    Live view parent cs place := by
  refine ⟨fun h above c hprefix hne hc => ?_, fun h above hprefix hne c hc => ?_⟩
  · exact passed_eq_false_iff.mp (h above hprefix hne c hc)
  · exact passed_eq_false_iff.mpr (h above c hprefix hne hc)

/-- A walk comes to the live criteria. -/
theorem mem_walkFrom_passed_iff :
    (place, c) ∈ walkFrom (passed (view.known parent)) 0 cs ↔ lookup? cs place = some c ∧
      Live view parent cs place := by
  rw [mem_walkFrom_iff, clear_passed_iff]

/-- The live faults are those on a walk. -/
theorem faultAt_iff : FaultAt view parent cs place e ↔
    ∃ c, (place, c) ∈ walkFrom (passed (view.known parent)) 0 cs ∧
      fault? view.blind (view.known parent) place c = some e := by
  refine exists_congr fun c => ?_
  rw [mem_walkFrom_passed_iff, fault?_eq_some_iff, and_assoc]

/-- Evaluating a list of criteria fails with the first fault on a walk through them. -/
theorem failure?_evaluateAll : failure? (evaluateAll view parent cs join).1 =
    (walkFrom (passed (view.known parent)) 0 cs).findSome?
      fun e => fault? view.blind (view.known parent) e.1 e.2 := by
  have hlist : failure? (evaluateList view.blind (view.known parent) cs join) =
      failure? (evaluateMembers view.blind (view.known parent) 0 cs) := by
    unfold evaluateList
    rcases evaluateMembers view.blind (view.known parent) 0 cs with _ | ⟨statuses, places⟩ <;> rfl
  rw [← failure?_evaluateMembers, ← hlist, (evaluateAll_tells view parent cs join).fst]
  rcases evaluateList view.blind (view.known parent) cs join with _ | ⟨status, places⟩ <;> rfl

/-- Evaluation of a list fails with the first live fault. -/
theorem evaluateAll_eq_error_iff : (evaluateAll view parent cs join).1 = .error e ↔
    ∃ place, FaultAt view parent cs place e ∧
      ∀ place' e', FaultAt view parent cs place' e' → ¬ place' < place := by
  rw [← failure?_eq_some_iff, failure?_evaluateAll,
    findSome?_eq_some_iff_least (pairwise_walkFrom cs _ 0)]
  -- the walk is in the order of places, so the first fault on it is the least one
  constructor
  · rintro ⟨⟨place, c⟩, hmem, he, hleast⟩
    refine ⟨place, faultAt_iff.mpr ⟨c, hmem, he⟩, fun place' e' h' => ?_⟩
    obtain ⟨c', hmem', he'⟩ := faultAt_iff.mp h'
    exact hleast (place', c') hmem' (by rw [he']; rfl)
  · rintro ⟨place, h, hleast⟩
    obtain ⟨c, hmem, he⟩ := faultAt_iff.mp h
    refine ⟨(place, c), hmem, he, ?_⟩
    rintro ⟨place', c'⟩ hmem' hsome
    obtain ⟨e', he'⟩ := Option.isSome_iff_exists.mp hsome
    exact hleast place' e' (faultAt_iff.mpr ⟨c', hmem', he'⟩)

/-- Evaluation of a list fails if there is a live fault at all. -/
theorem evaluateAll_fails_iff : (∃ e, (evaluateAll view parent cs join).1 = .error e) ↔
    ∃ place e, FaultAt view parent cs place e := by
  constructor
  · rintro ⟨e, he⟩
    obtain ⟨place, h, -⟩ := evaluateAll_eq_error_iff.mp he
    exact ⟨place, e, h⟩
  · rintro ⟨place, e, h⟩
    obtain ⟨c, hmem, he⟩ := faultAt_iff.mp h
    -- some fault is found, so there is a first one
    have hfails : (failure? (evaluateAll view parent cs join).1).isSome = true := by
      rw [failure?_evaluateAll, List.findSome?_isSome_iff]
      exact ⟨(place, c), hmem, by rw [he]; rfl⟩
    obtain ⟨e', he'⟩ := Option.isSome_iff_exists.mp hfails
    exact ⟨e', failure?_eq_some_iff.mp he'⟩

/-- What it takes for something to be wrong with a criteria. -/
theorem exists_faulty_iff : (∃ e, Faulty view key c e) ↔
    Version.current < c.apiVersion ∨ ¬ (c.isTransient = true ∧ key ∈ view.latched) ∧
      ∃ v t name args, c = .single v t (.custom name args) ∧ view.predicate name = none := by
  constructor
  · -- either fault gives rise to one of the two conditions
    rintro ⟨e, hv | ⟨-, hl, hname⟩⟩
    · exact .inl hv
    · exact .inr ⟨hl, _, _, _, _, rfl, hname⟩
  · rintro (hv | ⟨hl, v, t, name, args, rfl, hname⟩)
    · exact ⟨_, .unsupported hv⟩
    · -- with an unknown predicate, there is a fault whether the version is too late or not
      by_cases hv : Version.current < v
      · exact ⟨_, .unsupported (c := single v t (.custom name args)) hv⟩
      · exact ⟨_, .unknownPredicate hv hl hname⟩

/-- Faults depend on nothing but the latches and the names that are registered. -/
theorem FaultAt.of_agree (hlatched : ∀ key, key ∈ view.latched ↔ key ∈ view'.latched)
    (hnames : ∀ name, view.predicate name = none ↔ view'.predicate name = none)
    (h : FaultAt view parent cs place e) : FaultAt view' parent cs place e := by
  obtain ⟨c, hc, hlive, hfaulty⟩ := h
  refine ⟨c, hc, fun above c' hprefix hne hc' hl => ?_, ?_⟩
  · exact hlive above c' hprefix hne hc' ⟨hl.1, (hlatched _).mpr hl.2⟩
  · cases hfaulty with
    | unsupported hv => exact .unsupported hv
    | unknownPredicate hv hl hname =>
      exact .unknownPredicate hv (fun h => hl ⟨h.1, (hlatched _).mpr h.2⟩) ((hnames _).mp hname)

/-- **The error of an evaluation is that of the first live fault.** A criteria is at fault if it
needs a later version of the format, or asks for a predicate that nobody registered and was not
latched before. The first fault is the one at the least place in the lexicographic order, which is
the order of a visit: a criteria before its members, and members from left to right. There is
nothing else to an error: neither the join, nor any of the values and replies that a view shows, nor
what a predicate answers gives rise to an error or hides one. -/
theorem error_is_first_fault (view : View) (parent : Key) (cs : List Criteria) (join : Join) :
    (∀ e, (evaluateAll view parent cs join).1 = .error e ↔
      ∃ place, FaultAt view parent cs place e ∧
        ∀ place' e', FaultAt view parent cs place' e' → ¬ place' < place) ∧
    ((∃ e, (evaluateAll view parent cs join).1 = .error e) ↔
      ∃ place c, lookup? cs place = some c ∧ Live view parent cs place ∧
        (Version.current < c.apiVersion ∨
          ¬ (c.isTransient = true ∧ parent.along place ∈ view.latched) ∧
          ∃ v t name args, c = .single v t (.custom name args) ∧ view.predicate name = none)) ∧
    ∀ (view' : View) (join' : Join), (∀ key, key ∈ view.latched ↔ key ∈ view'.latched) →
      (∀ name, view.predicate name = none ↔ view'.predicate name = none) →
      ∀ e, (evaluateAll view parent cs join).1 = .error e ↔
        (evaluateAll view' parent cs join').1 = .error e := by
  refine ⟨fun e => evaluateAll_eq_error_iff, ?_, fun view' join' hlatched hnames e => ?_⟩
  · rw [evaluateAll_fails_iff]
    refine exists_congr fun place => ?_
    constructor
    · rintro ⟨e, c, hc, hlive, hfaulty⟩
      exact ⟨c, hc, hlive, exists_faulty_iff.mp ⟨e, hfaulty⟩⟩
    · rintro ⟨c, hc, hlive, hfaulty⟩
      obtain ⟨e, he⟩ := exists_faulty_iff.mpr hfaulty
      exact ⟨e, c, hc, hlive, he⟩
  · -- two views that agree on latches and names have the same faults, so the first one is the same
    have hfaults : ∀ place e', FaultAt view parent cs place e' ↔ FaultAt view' parent cs place e' :=
      fun _ _ =>
      ⟨.of_agree hlatched hnames, .of_agree (fun key => (hlatched key).symm) fun name =>
        (hnames name).symm⟩
    rw [evaluateAll_eq_error_iff, evaluateAll_eq_error_iff]
    simp only [hfaults]

/-- The end of an action, and a group of which any one member would do: one that holds, and one that
nobody knows. -/
def unknownBehindMet : List Criteria :=
  [of .actionComplete, ofGroup .any [void, of (.custom "missing" .null)]]

/-- The unknown one is an error while the action goes on, and so it is when everything else is
met. -/
theorem unknownBehindMet_fails :
    (evaluateAll { stillActing with actionComplete := true } "1/end" unknownBehindMet .any).1 =
      .error (.unknownPredicate "missing") := by
  obtain ⟨-, -, hsame⟩ := error_is_first_fault stillActing "1/end" unknownBehindMet .all
  have hfails : (evaluateAll stillActing "1/end" unknownBehindMet .all).1 =
      .error (.unknownPredicate "missing") := by
    rfl
  exact (hsame _ .any (fun _ => Iff.rfl) (fun _ => Iff.rfl) _).mp hfails

end Criteria

end Playtest
