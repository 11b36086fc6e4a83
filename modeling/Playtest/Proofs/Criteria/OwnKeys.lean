import Playtest.Proofs.Criteria.Errors

/-!
# The keys that evaluation goes by

Which keys an evaluation asks about, and which ones it brings. A visit hands out a key for every
criteria, and evaluation keeps to them:

* it asks for the reply under a key only if that is the key of a vision criteria, and for the latch
  only if it is the key of a transient criteria (`Criteria.outcome_eq_of_agree`). Whatever is known
  under other keys does not matter,
* the keys that it brings are those of transient criteria that are met (`Criteria.mem_latched_iff`).

Both follow from `Criteria.outcome_eq`: what an evaluation comes to is what it comes to by places,
written with the keys of these places.
-/

namespace Playtest

/-- What is known of the criteria inside the one at a place. -/
def Known.below (known : Known) (place : Place) : Known := place.foldl Known.inside known

/-- What a view knows under the key of a place is what it knows at that place. -/
theorem View.known_along (view : View) (parent : Key) (place : Place) :
    view.known (parent.along place) = (view.known parent).below place := by
  induction place generalizing parent with
  | nil => rfl
  | cons i place ih => exact ih (parent.member i)

/-- Only tests of vision have to do with replies. -/
theorem Test.evaluateWith_congr {view : View} {reply reply' : Option Vision.Reply} {test : Test}
    (h : (∃ kind query, test = .vision kind query) → reply = reply') :
    test.evaluateWith reply view = test.evaluateWith reply' view := by
  cases test with
  | vision kind query => rw [h ⟨kind, query, rfl⟩]
  | _ => rfl

namespace Criteria

/-- What the caller of an evaluation gets: the keys that are met for the first time count only if it
succeeds. -/
def outcome {α : Type} (evaluated : Except EvaluationError α × Notes) :
    Except EvaluationError (α × List Key) :=
  evaluated.1.map fun a => (a, evaluated.2.latched)

variable {view view' : View} {known known' : Known} {parent : Key} {c d : Criteria}
  {cs : List Criteria} {status : CriteriaStatus} {statuses : List CriteriaStatus}
  {places : List Place} {place : Place} {position : Nat} {join : Join}

/-- **Evaluation goes by the keys of places.** -/
theorem outcome_eq (view : View) (parent : Key) (cs : List Criteria) (join : Join) :
    outcome (evaluateAll view parent cs join) =
      (evaluateList view.blind (view.known parent) cs join).map fun e =>
        (e.1, e.2.map parent.along) := by
  have htells := evaluateAll_tells view parent cs join
  generalize evaluateAll view parent cs join = keyed at htells ⊢
  generalize evaluateList view.blind (view.known parent) cs join = placed at htells ⊢
  cases htells with
  | error e notes => rfl
  | ok status notes places h =>
    -- what was latched by keys is what was latched by places
    have hlatched : notes.latched = places.map parent.along := h
    unfold outcome
    rw [hlatched]
    rfl

/-! ### What is asked about -/

/-- What is known about criteria **agrees** as far as it is asked for: the replies to vision
criteria, and the latches of transient ones. -/
def Agree (find : Place → Option Criteria) (known known' : Known) : Prop :=
  ∀ place c, find place = some c →
    ((∃ v t kind query, c = single v t (.vision kind query)) →
      known.reply place = known'.reply place) ∧
      (c.isTransient = true → known.isLatched place = known'.isLatched place)

/-- If what is known agrees, the same criteria are passed over. -/
theorem Agree.passed_eq (h : Agree (within? c) known known') :
    (c.isTransient && known.isLatched []) = (c.isTransient && known'.isLatched []) := by
  cases ht : c.isTransient with
  | false => rfl
  | true => rw [(h [] c rfl).2 ht]

/-- What is known of a member agrees if it does of the whole. -/
theorem Agree.inside {i : Nat} (h : Agree (within? c) known known') (hi : c.members[i]? = some d) :
    Agree (within? d) (known.inside i) (known'.inside i) := by
  rw [← within?_cons hi]
  exact fun place c' hc' => h (i :: place) c' hc'

mutual

/-- **Evaluation asks for nothing else**: it comes to the same by two things known that agree. -/
theorem evaluateAt_congr (view : View) : ∀ (c : Criteria) {known known' : Known},
    Agree (within? c) known known' → evaluateAt view known c = evaluateAt view known' c
  | single v t test, known, known', h => by
    have htest : test.evaluateWith (known.reply []) view =
        test.evaluateWith (known'.reply []) view :=
      Test.evaluateWith_congr fun ⟨kind, query, ht⟩ =>
        (h [] (single v t test) rfl).1 ⟨v, t, kind, query, by rw [ht]⟩
    -- the latch of the criteria itself agrees, and so both are looked at or neither is
    rw [evaluateAt_eq, evaluateAt_eq, h.passed_eq, evaluateOwn, evaluateOwn, htest]
  | group v t join members, known, known', h => by
    -- every member asks for what is inside it only
    have hmembers : evaluateMembers view known 0 members =
        evaluateMembers view known' 0 members := by
      refine evaluateMembers_congr view members 0 fun i d hi => ?_
      rw [Nat.zero_add]
      exact h.inside hi
    rw [evaluateAt_eq, evaluateAt_eq, h.passed_eq, evaluateOwn, evaluateOwn, hmembers]

/-- The same for members, from any position on. -/
theorem evaluateMembers_congr (view : View) : ∀ (cs : List Criteria) {known known' : Known}
    (position : Nat),
    (∀ i d, cs[i]? = some d →
      Agree (within? d) (known.inside (position + i)) (known'.inside (position + i))) →
      evaluateMembers view known position cs = evaluateMembers view known' position cs
  | [], known, known', position, _ => rfl
  | c :: cs, known, known', position, h => by
    -- the first member is inside at this position, the others one further on
    have hfirst := evaluateAt_congr view c (h 0 c rfl)
    have hothers : evaluateMembers view known (position + 1) cs =
        evaluateMembers view known' (position + 1) cs := by
      refine evaluateMembers_congr view cs (position + 1) fun i d hi => ?_
      rw [Nat.add_right_comm, Nat.add_assoc]
      exact h (i + 1) d hi
    rw [Nat.add_zero] at hfirst
    rw [evaluateMembers, evaluateMembers, hfirst, hothers]

end

/-- **Nothing but the keys of a visit matters**: two views that show the same replies to vision
criteria and the same latches of transient ones, each under its own key, make evaluations come to
the same. -/
theorem outcome_eq_of_agree (hblind : view.blind = view'.blind)
    (hreply : ∀ key v t kind query, (key, single v t (.vision kind query)) ∈ withKeys parent cs →
      view.reply key = view'.reply key)
    (hlatched : ∀ key c, (key, c) ∈ withKeys parent cs → c.isTransient = true →
      (key ∈ view.latched ↔ key ∈ view'.latched)) :
    outcome (evaluateAll view parent cs join) = outcome (evaluateAll view' parent cs join) := by
  -- the places in a list are those that have a key in the visit
  have hagree : ∀ i d, cs[i]? = some d →
      Agree (within? d) ((view.known parent).inside (0 + i))
        ((view'.known parent).inside (0 + i)) := by
    intro i d hi place c hc
    rw [Nat.zero_add]
    have hmem : (parent.along (i :: place), c) ∈ withKeys parent cs :=
      along_mem_withKeys_iff.mpr ((congrFun (lookup?_cons hi) place).trans hc)
    constructor
    · -- a vision criteria is in the visit under this key, so its replies agree
      rintro ⟨v, t, kind, query, rfl⟩
      exact hreply _ v t kind query hmem
    · -- and so is a transient one, so its latches agree
      intro ht
      have hiff := hlatched _ c hmem ht
      rw [← List.contains_iff_mem, ← List.contains_iff_mem] at hiff
      exact Bool.eq_iff_iff.mpr hiff
  rw [outcome_eq, outcome_eq, evaluateList, evaluateList, hblind,
    evaluateMembers_congr view'.blind cs 0 hagree]

/-! ### What is brought -/

/-- A place is **met for the first time** if the way to it is clear, and the criteria there is
transient, was not latched before and is met if it is evaluated by itself. -/
def FirstMet (view : View) (known : Known) (find : Place → Option Criteria) (place : Place) :
    Prop :=
  ∃ d, find place = some d ∧ Clear (passed known) find place ∧ d.isTransient = true ∧
    known.isLatched place = false ∧ ∃ inner,
      evaluateAt view (known.below place) d = .ok (.met, inner)

/-- A criteria itself is met for the first time if it is transient, was not latched, and is met. -/
theorem firstMet_nil_iff : FirstMet view known (within? c) [] ↔
    c.isTransient = true ∧ known.isLatched [] = false ∧ ∃ inner,
      evaluateAt view known c = .ok (.met, inner) := by
  constructor
  · rintro ⟨d, hd, -, hrest⟩
    obtain rfl : c = d := Option.some.inj hd
    exact hrest
  · exact fun h => ⟨c, rfl, clear_nil, h⟩

/-- A place inside a member is met for the first time if the member is looked into, and if it is met
there. -/
theorem firstMet_cons_iff {i : Nat} : FirstMet view known (within? c) (i :: place) ↔
    passed known [] c = false ∧
      ∃ member, c.members[i]? = some member ∧
        FirstMet view (known.inside i) (within? member) place := by
  constructor
  · rintro ⟨d, hd, hclear, hrest⟩
    obtain ⟨member, hi, hfind⟩ := Option.bind_eq_some_iff.mp hd
    obtain ⟨hstop, hclear⟩ := (clear_within_cons_iff hi).mp hclear
    exact ⟨hstop, member, hi, d, hfind, hclear, hrest⟩
  · rintro ⟨hstop, member, hi, d, hfind, hclear, hrest⟩
    exact ⟨d, (congrFun (within?_cons hi) place).trans hfind,
      (clear_within_cons_iff hi).mpr ⟨hstop, hclear⟩, hrest⟩

/-- What a criteria brings is what is brought inside it, and the criteria itself. -/
theorem mem_places_of_own (h : evaluateAt view known c = .ok (status, places))
    (hown : ∀ status inner, evaluateOwn view known c = .ok (status, inner) → ∀ i rest,
      i :: rest ∈ inner ↔ ∃ member, c.members[i]? = some member ∧
        FirstMet view (known.inside i) (within? member) rest) :
    place ∈ places ↔ FirstMet view known (within? c) place := by
  obtain ⟨-, ⟨hl, -, rfl⟩ | ⟨hl, inner, ho, rfl⟩⟩ := evaluateAt_ok_cases h
  · -- nothing is looked at
    refine iff_of_false List.not_mem_nil fun hnew => ?_
    cases place with
    | nil =>
      obtain ⟨ht, hf, -⟩ := firstMet_nil_iff.mp hnew
      rw [ht, hf] at hl
      cases hl
    | cons i rest => exact Bool.false_ne_true ((firstMet_cons_iff.mp hnew).1.symm.trans hl)
  · rw [List.mem_append, mem_newlyMet_iff]
    cases place with
    | nil =>
      -- the criteria itself: what is inside it is at other places
      rw [firstMet_nil_iff, h, Bool.and_eq_true_iff, beq_iff_eq]
      constructor
      · rintro (hinner | ⟨⟨ht, rfl⟩, -⟩)
        · obtain ⟨i, rest, -, heq⟩ := evaluateOwn_inside ho [] hinner
          cases heq
        · rw [ht, Bool.true_and] at hl
          exact ⟨ht, hl, _, rfl⟩
      · rintro ⟨ht, -, inner', heq⟩
        exact .inr ⟨⟨ht, congrArg Prod.fst (Except.ok.inj heq)⟩, rfl⟩
    | cons i rest =>
      rw [firstMet_cons_iff, hown status inner ho i rest]
      constructor
      · rintro (hmember | ⟨-, heq⟩)
        · exact ⟨hl, hmember⟩
        · cases heq
      · exact fun hnew => .inl hnew.2

mutual

/-- **An evaluation brings the places that are met for the first time.** -/
theorem mem_evaluateAt_iff (view : View) :
    ∀ (c : Criteria) {known : Known} {status : CriteriaStatus}
    {places : List Place}, evaluateAt view known c = .ok (status, places) →
      ∀ place, place ∈ places ↔ FirstMet view known (within? c) place
  -- a test has nothing inside it
  | single v t test, known, status, places, h => fun place =>
    mem_places_of_own h fun _ inner ho i rest => by
      rw [(evaluateOwn_single_ok_iff.mp ho).2]
      exact iff_of_false List.not_mem_nil fun ⟨_, hi, _⟩ => by cases hi
  -- a group has what is inside its members, by the positions of these
  | group v t join members, known, status, places, h => fun place =>
    mem_places_of_own h fun _ inner ho i rest => by
      obtain ⟨statuses, hmembers, -⟩ := evaluateOwn_group_ok_iff.mp ho
      rw [mem_evaluateMembers_iff view members hmembers]
      constructor
      · rintro ⟨j, member, rest', heq, hj, hnew⟩
        rw [Nat.zero_add] at heq hnew
        obtain ⟨rfl, rfl⟩ := List.cons.inj heq
        exact ⟨member, hj, hnew⟩
      · rintro ⟨member, hi, hnew⟩
        refine ⟨i, member, rest, by rw [Nat.zero_add], hi, ?_⟩
        rwa [Nat.zero_add]

/-- The same for members, from any position on. -/
theorem mem_evaluateMembers_iff (view : View) : ∀ (cs : List Criteria) {known : Known}
    {position : Nat} {statuses : List CriteriaStatus} {places : List Place},
    evaluateMembers view known position cs = .ok (statuses, places) →
      ∀ place, place ∈ places ↔ ∃ i c rest, place = (position + i) :: rest ∧ cs[i]? = some c ∧
        FirstMet view (known.inside (position + i)) (within? c) rest
  | [], known, position, statuses, places, h => fun place => by
    cases h
    exact iff_of_false List.not_mem_nil fun ⟨_, _, _, _, hi, _⟩ => by cases hi
  | c :: cs, known, position, statuses, places, h => fun place => by
    obtain ⟨status, first, others, rest, hc, hcs, -, rfl⟩ := evaluateMembers_cons_ok_iff.mp h
    rw [List.mem_append, List.mem_map, mem_evaluateMembers_iff view cs hcs]
    constructor
    · rintro (⟨inner, hinner, rfl⟩ | ⟨i, d, deeper, rfl, hi, hnew⟩)
      · -- it is inside the first member, or inside one of those behind it
        exact ⟨0, c, inner, rfl, rfl, (mem_evaluateAt_iff view c hc inner).mp hinner⟩
      · refine ⟨i + 1, d, deeper, ?_, hi, ?_⟩
        · rw [Nat.add_right_comm, Nat.add_assoc]
        · rwa [Nat.add_right_comm, Nat.add_assoc] at hnew
    · rintro ⟨i, d, deeper, rfl, hi, hnew⟩
      cases i with
      | zero =>
        obtain rfl : c = d := Option.some.inj hi
        exact .inl ⟨deeper, (mem_evaluateAt_iff view c hc deeper).mpr hnew, rfl⟩
      | succ i =>
        refine .inr ⟨i, d, deeper, ?_, hi, ?_⟩
        · rw [Nat.add_right_comm, Nat.add_assoc]
        · rwa [Nat.add_right_comm, Nat.add_assoc]

end

/-- The same for a list of criteria. -/
theorem mem_evaluateList_iff (h : evaluateList view known cs join = .ok (status, places))
    (place : Place) :
    place ∈ places ↔ FirstMet view known (lookup? cs) place := by
  obtain ⟨statuses, hmembers, -⟩ := evaluateList_ok_iff.mp h
  rw [mem_evaluateMembers_iff view cs hmembers]
  constructor
  · -- a place in the list begins with the position of a member
    rintro ⟨i, c, rest, rfl, hi, d, hd, hclear, hrest⟩
    rw [Nat.zero_add] at hclear hrest ⊢
    exact ⟨d, (congrFun (lookup?_cons hi) rest).trans hd, (clear_lookup_cons_iff hi).mpr hclear,
      hrest⟩
  · rintro ⟨d, hd, hclear, hrest⟩
    cases place with
    | nil => cases hd
    | cons i rest =>
      obtain ⟨c, hi, hfind⟩ := Option.bind_eq_some_iff.mp hd
      refine ⟨i, c, rest, by rw [Nat.zero_add], hi, ?_⟩
      rw [Nat.zero_add]
      exact ⟨d, hfind, (clear_lookup_cons_iff hi).mp hclear, hrest⟩

/-- A criteria is met under its key if it is met at its place. -/
theorem evaluate_met_iff {key : Key} : (evaluate view key c).1 = .ok .met ↔
    ∃ inner, evaluateAt view.blind (view.known key) c = .ok (.met, inner) := by
  -- with keys and notes taken away, both evaluations have the same status
  have hfst : (evaluate view key c).1 = (evaluateAt view.blind (view.known key) c).map Prod.fst :=
    (evaluateKeyed_tells view c key .none).fst
  rw [hfst]
  rcases evaluateAt view.blind (view.known key) c with e | ⟨status, inner⟩
  · exact iff_of_false (fun h => by cases h) fun ⟨_, h⟩ => by cases h
  · constructor
    · intro h
      obtain rfl : status = .met := Except.ok.inj h
      exact ⟨inner, rfl⟩
    · rintro ⟨_, h⟩
      cases h
      rfl

/-- **What is brought, by keys.** An evaluation that succeeds brings the key of every transient
criteria that is live, was not latched before, and is met if it is evaluated under this key by
itself. It brings no other key. -/
theorem mem_latched_iff {notes : Notes} (h : evaluateAll view parent cs join = (.ok status, notes))
    (key : Key) :
    key ∈ notes.latched ↔ ∃ place c, parent.along place = key ∧ lookup? cs place = some c ∧
      Live view parent cs place ∧ c.isTransient = true ∧ key ∉ view.latched ∧
        (evaluate view key c).1 = .ok .met := by
  have htells := evaluateAll_tells view parent cs join
  rw [h] at htells
  obtain ⟨places, hlist, hlatched⟩ := htells.of_keyed
  change notes.latched = places.map parent.along at hlatched
  -- what is not latched under a key is not latched at its place
  have hunlatched : ∀ place, (view.known parent).isLatched place = false ↔
      parent.along place ∉ view.latched := by
    intro place
    rw [← Bool.not_eq_true]
    exact not_congr List.contains_iff_mem
  rw [hlatched, List.mem_map]
  refine exists_congr fun place => ?_
  -- place by place, what is known at a place is what is known under its key
  rw [mem_evaluateList_iff hlist]
  constructor
  · rintro ⟨⟨c, hc, hclear, ht, hl, hmet⟩, rfl⟩
    rw [← View.known_along] at hmet
    exact ⟨c, rfl, hc, clear_passed_iff.mp hclear, ht, (hunlatched place).mp hl,
      evaluate_met_iff.mpr hmet⟩
  · rintro ⟨c, rfl, hc, hlive, ht, hl, hmet⟩
    refine ⟨⟨c, hc, clear_passed_iff.mpr hlive, ht, (hunlatched place).mpr hl, ?_⟩, rfl⟩
    rw [← View.known_along]
    exact evaluate_met_iff.mp hmet

end Criteria

end Playtest
