import Playtest.Proofs.Criteria.ByPlace
import Playtest.Proofs.Criteria.Readings

/-!
# What more latches change

A latched criteria is met without being looked at, and so other criteria are looked at when more of
them are latched. This module says that nobody has to fear for that. The main result is
`Criteria.latches_only_lift`:

* latching what an evaluation has noted settles the matter. The same evaluation comes to the same
  status once more, with the same reason, and notes nothing,
* latching whatever else raises no error, and can only lift a status: `unmet` is lowest and `met` is
  highest.

Both are shown by places, by induction on criteria. For the first one, what is noted inside a member
is at places of that member, and so one member's latches do not get into the way of another one
(`Criteria.evaluateMembers_again`). If a criteria is noted itself, then it is met, and stays so. For
the second one, what a status is read as (`CriteriaStatus.reading`) is monotone in what its members
are read as (`CriteriaStatus.rank_combine_le`).
-/

namespace Playtest

/-! ### The order of statuses -/

/-- A join that holds goes on to hold when more of its members do. -/
theorem Join.holds_mono {join : Join} {bs bs' : List Bool}
    (h : List.Forall₂ (fun b b' => b = true → b' = true) bs bs') (hb : join.holds bs = true) :
    join.holds bs' = true := by
  cases join with
  -- each member of the two lists is compared with its counterpart
  | all =>
    change bs.all id = true at hb
    change bs'.all id = true
    induction h with
    | nil => rfl
    | cons hfirst _ ih =>
      rw [List.all_cons, Bool.and_eq_true_iff] at hb ⊢
      exact ⟨hfirst hb.1, ih hb.2⟩
  | any =>
    change (bs.isEmpty || bs.any id) = true at hb
    change (bs'.isEmpty || bs'.any id) = true
    rw [Bool.or_eq_true_iff] at hb ⊢
    -- an empty list holds, and of others some member has to
    refine hb.imp (fun hempty => ?_) fun hany => ?_
    · rw [List.isEmpty_iff] at hempty ⊢
      subst hempty
      exact List.forall₂_nil_left_iff.mp h
    · clear hb
      induction h with
      | nil => exact hany
      | cons hfirst _ ih =>
        rw [List.any_cons, Bool.or_eq_true_iff] at hany ⊢
        exact hany.imp hfirst ih

namespace CriteriaStatus

/-- The **rank** of a status: `unmet` is below `resolvedByTimeout`, and that is below `met`. -/
def rank : CriteriaStatus → Nat
  | unmet _ => 0
  | resolvedByTimeout => 1
  | met => 2

theorem rank_le_met (s : CriteriaStatus) : s.rank ≤ met.rank := by
  cases s <;> simp [rank]

/-- A status is above another one if it holds whenever that one does, whatever timeouts count
for. -/
theorem rank_le_iff_reading {s s' : CriteriaStatus} :
    s.rank ≤ s'.rank ↔ ∀ late, s.reading late = true → s'.reading late = true := by
  cases s <;> cases s' <;> simp [rank, reading]

/-- **Lifting members lifts the whole.** -/
theorem rank_combine_le {join : Join} {ss ss' : List CriteriaStatus}
    (h : List.Forall₂ (fun s s' => s.rank ≤ s'.rank) ss ss') :
    (combine join ss).rank ≤ (combine join ss').rank := by
  refine rank_le_iff_reading.mpr fun late hs => ?_
  rw [reading_combine] at hs ⊢
  refine Join.holds_mono ?_ hs
  rw [List.forall₂_map_left_iff, List.forall₂_map_right_iff]
  exact h.imp fun _ _ hle => rank_le_iff_reading.mp hle late

end CriteriaStatus

namespace Criteria

variable {view : View} {known known' : Known} {c : Criteria} {cs : List Criteria}
  {status : CriteriaStatus} {statuses : List CriteriaStatus} {places : List Place} {position : Nat}

/-! ### What is noted -/

/-- Places that are noted **for the first time**: none of them twice, and none that was latched
before. -/
structure Fresh (known : Known) (places : List Place) : Prop where
  nodup : places.Nodup
  unlatched : ∀ place ∈ places, known.isLatched place = false

/-- Nothing is noted for the first time, and nothing twice. -/
theorem Fresh.nil (known : Known) : Fresh known [] := ⟨.nil, fun _ hp => absurd hp List.not_mem_nil⟩

/-- What is noted inside a criteria is noted for the first time, and so is the criteria itself. -/
theorem Fresh.evaluateAt
    (hown : ∀ status inner, evaluateOwn view known c = .ok (status, inner) → Fresh known inner)
    (h : evaluateAt view known c = .ok (status, places)) : Fresh known places := by
  obtain ⟨-, ⟨-, -, rfl⟩ | ⟨hl, inner, ho, rfl⟩⟩ := evaluateAt_ok_cases h
  · exact .nil known
  have hinner := hown status inner ho
  constructor
  case nodup =>
    refine List.nodup_append.mpr ⟨hinner.nodup, ?_, fun place hp own hnew heq => ?_⟩
    · unfold newlyMet
      split
      · exact List.nodup_singleton _
      · exact .nil
    · -- the criteria itself is at no place inside it
      obtain ⟨i, rest, -, rfl⟩ := evaluateOwn_inside ho place hp
      rw [(mem_newlyMet_iff.mp hnew).2] at heq
      cases heq
  case unlatched =>
    refine List.forall_mem_append.mpr ⟨hinner.unlatched, fun place hp => ?_⟩
    obtain ⟨hmet, rfl⟩ := mem_newlyMet_iff.mp hp
    rwa [(Bool.and_eq_true_iff.mp hmet).1, Bool.true_and] at hl

mutual

/-- **A criteria notes what is met for the first time**, and notes it once. -/
theorem evaluateAt_fresh (view : View) : ∀ (c : Criteria) {known : Known} {status : CriteriaStatus}
    {places : List Place}, evaluateAt view known c = .ok (status, places) → Fresh known places
  | single v t test, known, status, places, h => by
    refine Fresh.evaluateAt (fun _ inner ho => ?_) h
    rw [(evaluateOwn_single_ok_iff.mp ho).2]
    exact .nil known
  | group v t join members, known, status, places, h => by
    refine Fresh.evaluateAt (fun _ inner ho => ?_) h
    obtain ⟨statuses, hmembers, -⟩ := evaluateOwn_group_ok_iff.mp ho
    exact evaluateMembers_fresh view members hmembers

/-- The same for members, from any position on. -/
theorem evaluateMembers_fresh (view : View) : ∀ (cs : List Criteria) {known : Known}
    {position : Nat} {statuses : List CriteriaStatus} {places : List Place},
      evaluateMembers view known position cs = .ok (statuses, places) → Fresh known places
  | [], known, position, statuses, places, h => by
    cases h
    exact .nil known
  | c :: cs, known, position, statuses, places, h => by
    obtain ⟨status, first, others, rest, hc, hcs, -, rfl⟩ := evaluateMembers_cons_ok_iff.mp h
    have hfirst := evaluateAt_fresh view c hc
    have hrest := evaluateMembers_fresh view cs hcs
    constructor
    case nodup =>
      refine List.nodup_append.mpr ⟨?_, hrest.nodup, fun place hp other ho heq => ?_⟩
      · exact hfirst.nodup.map fun _ _ he => (List.cons.inj he).2
      · -- the first place begins with the position of this member, the other one with a later one
        obtain ⟨inner, -, rfl⟩ := List.mem_map.mp hp
        obtain ⟨i, deeper, hi, rfl⟩ := evaluateMembers_inside view known cs hcs other ho
        have hsame : position = i := (List.cons.inj heq).1
        omega
    case unlatched =>
      refine List.forall_mem_append.mpr ⟨fun place hp => ?_, hrest.unlatched⟩
      obtain ⟨inner, hinner, rfl⟩ := List.mem_map.mp hp
      exact hfirst.unlatched inner hinner

end

/-! ### Evaluating again -/

/-- Places are **added** to what is latched at and inside members from a position on. Nothing else
has changed there. -/
structure Added (known : Known) (position : Nat) (places : List Place) (known' : Known) : Prop where
  reply : known'.reply = known.reply
  isLatched : ∀ i rest, position ≤ i →
    (known'.isLatched (i :: rest) = true ↔ known.isLatched (i :: rest) = true ∨ i :: rest ∈ places)

/-- A criteria comes to the same again if what is inside it does, and then notes nothing. -/
theorem evaluateAt_again_of_own (h : evaluateAt view known c = .ok (status, places))
    (hr : known'.reply = known.reply)
    (hl : ∀ place, known'.isLatched place = true ↔ known.isLatched place = true ∨ place ∈ places)
    (hown : ∀ inner, evaluateOwn view known c = .ok (status, inner) → Added known 0 inner known' →
      evaluateOwn view known' c = .ok (status, [])) :
    evaluateAt view known' c = .ok (status, []) := by
  obtain ⟨hv, ⟨hold, rfl, rfl⟩ | ⟨hold, inner, ho, rfl⟩⟩ := evaluateAt_ok_cases h
  · -- it was latched before, and still is
    obtain ⟨ht, hroot⟩ := Bool.and_eq_true_iff.mp hold
    refine evaluateAt_of_latched hv (Bool.and_eq_true_iff.mpr ⟨ht, ?_⟩)
    exact (hl []).mpr (.inl hroot)
  by_cases hmet : (c.isTransient && status == .met) = true
  · -- the criteria has been noted itself
    obtain ⟨ht, hstatus⟩ := Bool.and_eq_true_iff.mp hmet
    obtain rfl : status = .met := beq_iff_eq.mp hstatus
    refine evaluateAt_of_latched hv (Bool.and_eq_true_iff.mpr ⟨ht, ?_⟩)
    refine (hl []).mpr (.inr (List.mem_append_right _ ?_))
    exact mem_newlyMet_iff.mpr ⟨hmet, rfl⟩
  · have hnone : newlyMet c.isTransient status = [] := if_neg hmet
    rw [hnone, List.append_nil] at hl
    -- what is noted is inside, and so the criteria is looked at again
    have hroot : [] ∉ inner := by
      intro hmem
      obtain ⟨i, rest, -, heq⟩ := evaluateOwn_inside ho [] hmem
      cases heq
    have hsame : known'.isLatched [] = known.isLatched [] := by
      rw [Bool.eq_iff_iff, hl []]
      exact or_iff_left hroot
    have hagain := hown inner ho ⟨hr, fun i rest _ => hl (i :: rest)⟩
    have heval := evaluateAt_of_own hv (by rw [hsame]; exact hold) hagain
    rwa [hnone] at heval

mutual

/-- **A criteria comes to the same again**, when what it has noted is latched. -/
theorem evaluateAt_again (view : View) : ∀ (c : Criteria) {known known' : Known}
    {status : CriteriaStatus} {places : List Place},
      evaluateAt view known c = .ok (status, places) →
      known'.reply = known.reply →
      (∀ place, known'.isLatched place = true ↔ known.isLatched place = true ∨ place ∈ places) →
        evaluateAt view known' c = .ok (status, [])
  | single v t test, known, known', status, places, h, hr, hl => by
    -- a test asks for the same reply, and for nothing that is inside
    refine evaluateAt_again_of_own h hr hl fun inner ho _ => ?_
    rw [evaluateOwn_single_ok_iff, hr]
    exact ⟨(evaluateOwn_single_ok_iff.mp ho).1, rfl⟩
  | group v t join members, known, known', status, places, h, hr, hl => by
    -- a group asks the same of its members, for which the places inside are the ones that count
    refine evaluateAt_again_of_own h hr hl fun inner ho hadded => ?_
    obtain ⟨statuses, hmembers, hstatus⟩ := evaluateOwn_group_ok_iff.mp ho
    exact evaluateOwn_group_ok_iff.mpr ⟨statuses,
      evaluateMembers_again view members hmembers hadded, hstatus⟩

/-- **Members come to the same again**, when what they have noted is latched. -/
theorem evaluateMembers_again (view : View) : ∀ (cs : List Criteria) {known known' : Known}
    {position : Nat} {statuses : List CriteriaStatus} {places : List Place},
      evaluateMembers view known position cs = .ok (statuses, places) →
        Added known position places known' →
        evaluateMembers view known' position cs = .ok (statuses, [])
  | [], known, known', position, statuses, places, h, hadded => by
    cases h
    rfl
  | c :: cs, known, known', position, statuses, places, h, hadded => by
    obtain ⟨status, first, others, rest, hc, hcs, rfl, rfl⟩ := evaluateMembers_cons_ok_iff.mp h
    have hrest := evaluateMembers_inside view known cs hcs
    refine evaluateMembers_cons_ok_iff.mpr ⟨status, [], others, [], ?_, ?_, rfl, rfl⟩
    · -- what is latched inside the first member is what that member has noted
      refine evaluateAt_again view c hc (funext fun place =>
        congrFun hadded.reply (position :: place)) fun place => ?_
      refine (hadded.isLatched position place (Nat.le_refl _)).trans (or_congr_right ?_)
      rw [List.mem_append]
      constructor
      · rintro (hmem | hmem)
        · obtain ⟨inner, hinner, heq⟩ := List.mem_map.mp hmem
          exact (List.cons.inj heq).2 ▸ hinner
        · -- the others note nothing inside this one
          obtain ⟨i, deeper, hi, heq⟩ := hrest _ hmem
          have hsame : position = i := (List.cons.inj heq).1
          omega
      · exact fun hmem => .inl (List.mem_map_of_mem hmem)
    · refine evaluateMembers_again view cs hcs ⟨hadded.reply, fun i deeper hi => ?_⟩
      -- and this one nothing inside the others
      refine (hadded.isLatched i deeper (Nat.le_of_succ_le hi)).trans (or_congr_right ?_)
      rw [List.mem_append]
      refine or_iff_right fun hmem => ?_
      obtain ⟨inner, -, heq⟩ := List.mem_map.mp hmem
      have hsame : position = i := (List.cons.inj heq).1
      omega

end

/-! ### More latches -/

/-- At least as much is latched, and replies are the same. -/
structure Grown (known known' : Known) : Prop where
  reply : known'.reply = known.reply
  isLatched : ∀ place, known.isLatched place = true → known'.isLatched place = true

/-- What has grown as a whole has grown inside every member. -/
theorem Grown.inside (h : Grown known known') (i : Nat) :
    Grown (known.inside i) (known'.inside i) :=
  ⟨funext fun place => congrFun h.reply (i :: place), fun place => h.isLatched (i :: place)⟩

/-- A criteria is lifted if what is inside it is. -/
theorem evaluateAt_lifted_of_own (h : evaluateAt view known c = .ok (status, places))
    (hg : Grown known known') (hown : ∀ inner, evaluateOwn view known c = .ok (status, inner) →
      ∃ status' inner', evaluateOwn view known' c = .ok (status', inner') ∧
        status.rank ≤ status'.rank) :
    ∃ status' places', evaluateAt view known' c = .ok (status', places') ∧
      status.rank ≤ status'.rank := by
  obtain ⟨hv, hold⟩ := evaluateAt_ok_cases h
  by_cases hnow : (c.isTransient && known'.isLatched []) = true
  · -- nothing is higher than `met`
    exact ⟨.met, [], evaluateAt_of_latched hv hnow, status.rank_le_met⟩
  rcases hold with ⟨hold, -, -⟩ | ⟨-, inner, ho, -⟩
  · -- what was latched is
    obtain ⟨ht, hroot⟩ := Bool.and_eq_true_iff.mp hold
    exact absurd (Bool.and_eq_true_iff.mpr ⟨ht, hg.isLatched [] hroot⟩) hnow
  · -- it is looked at both times, so what is inside decides
    obtain ⟨status', inner', ho', hle⟩ := hown inner ho
    exact ⟨status', _, evaluateAt_of_own hv (Bool.eq_false_iff.mpr hnow) ho', hle⟩

mutual

/-- **A criteria is only lifted** by what is latched besides. -/
theorem evaluateAt_lifted (view : View) : ∀ (c : Criteria) {known known' : Known}
    {status : CriteriaStatus} {places : List Place},
      evaluateAt view known c = .ok (status, places) → Grown known known' →
      ∃ status' places', evaluateAt view known' c = .ok (status', places') ∧
        status.rank ≤ status'.rank
  | single v t test, known, known', status, places, h, hg => by
    -- a test only looks at its own reply, which is the same
    refine evaluateAt_lifted_of_own h hg fun inner ho => ⟨status, [], ?_, Nat.le_refl _⟩
    rw [evaluateOwn_single_ok_iff, hg.reply]
    exact ⟨(evaluateOwn_single_ok_iff.mp ho).1, rfl⟩
  | group v t join members, known, known', status, places, h, hg => by
    refine evaluateAt_lifted_of_own h hg fun inner ho => ?_
    obtain ⟨statuses, hmembers, rfl⟩ := evaluateOwn_group_ok_iff.mp ho
    -- each member is lifted at most, and joins do not turn that around
    obtain ⟨statuses', inner', hmembers', hle⟩ := evaluateMembers_lifted view members hmembers hg
    exact ⟨_, inner', evaluateOwn_group_ok_iff.mpr ⟨statuses', hmembers', rfl⟩,
      CriteriaStatus.rank_combine_le hle⟩

/-- **Members are only lifted**, one by one. -/
theorem evaluateMembers_lifted (view : View) : ∀ (cs : List Criteria) {known known' : Known}
    {position : Nat} {statuses : List CriteriaStatus} {places : List Place},
      evaluateMembers view known position cs = .ok (statuses, places) → Grown known known' →
        ∃ statuses' places', evaluateMembers view known' position cs = .ok (statuses', places') ∧
          List.Forall₂ (fun s s' => s.rank ≤ s'.rank) statuses statuses'
  | [], known, known', position, statuses, places, h, hg => by
    cases h
    exact ⟨[], [], rfl, .nil⟩
  | c :: cs, known, known', position, statuses, places, h, hg => by
    obtain ⟨status, first, others, rest, hc, hcs, rfl, rfl⟩ := evaluateMembers_cons_ok_iff.mp h
    obtain ⟨status', first', hc', hle⟩ := evaluateAt_lifted view c hc (hg.inside position)
    obtain ⟨others', rest', hcs', hall⟩ := evaluateMembers_lifted view cs hcs hg
    exact ⟨_, _, evaluateMembers_cons_ok_iff.mpr ⟨status', first', others', rest', hc',
      hcs', rfl, rfl⟩, .cons hle hall⟩

end

/-! ### Lists -/

variable {parent : Key} {join : Join} {notes : Notes}

/-- **Latches only lift.** Whenever a list of criteria can be evaluated,

* no key is noted twice, and none that was latched before,
* with what was noted latched as well, it comes to the same status again, and nothing is noted,
* with whatever latched besides, it can be evaluated and comes to a status that is at least as
  high. -/
theorem latches_only_lift (h : evaluateAll view parent cs join = (.ok status, notes)) :
    notes.latched.Nodup ∧ (∀ key ∈ notes.latched, key ∉ view.latched) ∧
      (∀ latched, (∀ key, key ∈ latched ↔ key ∈ view.latched ∨ key ∈ notes.latched) →
        ∃ messages,
          evaluateAll { view with latched } parent cs join = (.ok status, ⟨[], messages⟩)) ∧
      ∀ latched, view.latched ⊆ latched → ∃ status' notes',
        evaluateAll { view with latched } parent cs join = (.ok status', notes') ∧
          status.rank ≤ status'.rank := by
  have htells := evaluateAll_tells view parent cs join
  rw [h] at htells
  obtain ⟨places, hplaced, hnotes⟩ := htells.of_keyed
  replace hnotes : notes.latched = places.map parent.along := hnotes
  obtain ⟨statuses, hmembers, hstatus⟩ := evaluateList_ok_iff.mp hplaced
  have hfresh := evaluateMembers_fresh view.blind cs hmembers
  refine ⟨?_, ?_, fun latched hlatched => ?_, fun latched hsub => ?_⟩
  · -- different places have different keys
    rw [hnotes]
    exact hfresh.nodup.map (Key.along_injective parent)
  · -- what is latched is not looked at, and so it is not noted
    intro key hkey hbefore
    rw [hnotes] at hkey
    obtain ⟨place, hplace, rfl⟩ := List.mem_map.mp hkey
    have hcontains : view.latched.contains (parent.along place) = true :=
      List.contains_iff_mem.mpr hbefore
    have hunlatched : view.latched.contains (parent.along place) = false :=
      hfresh.unlatched place hplace
    exact Bool.false_ne_true (hunlatched.symm.trans hcontains)
  · -- latching the keys that were noted is latching the places they stand for
    have hadded : Added (view.known parent) 0 places (View.known { view with latched } parent) := by
      refine ⟨rfl, fun i rest _ => ?_⟩
      change latched.contains _ = true ↔ view.latched.contains _ = true ∨ _
      rw [List.contains_iff_mem, List.contains_iff_mem, hlatched, hnotes]
      exact or_congr_right (List.mem_map_of_injective (Key.along_injective parent))
    have hagain := evaluateList_ok_iff.mpr ⟨statuses,
        evaluateMembers_again view.blind cs hmembers hadded, hstatus⟩
    have htells := evaluateAll_tells { view with latched } parent cs join
    rw [show View.blind { view with latched } = view.blind from rfl, hagain] at htells
    obtain ⟨⟨noted, messages⟩, heval, hnone⟩ := htells.of_placed
    obtain rfl : noted = [] := hnone
    exact ⟨messages, heval⟩
  · -- with more latched the same list is evaluated, so it is lifted as a whole
    have hgrown : Grown (view.known parent) (View.known { view with latched } parent) := by
      refine ⟨rfl, fun place hl => ?_⟩
      exact List.contains_iff_mem.mpr (hsub (List.contains_iff_mem.mp hl))
    obtain ⟨statuses', places', hmembers', hle⟩ :=
      evaluateMembers_lifted view.blind cs hmembers hgrown
    have htells := evaluateAll_tells { view with latched } parent cs join
    rw [show View.blind { view with latched } = view.blind from rfl,
      evaluateList_ok_iff.mpr ⟨statuses', hmembers', rfl⟩] at htells
    obtain ⟨notes', heval, -⟩ := htells.of_placed
    refine ⟨_, notes', heval, ?_⟩
    rw [← hstatus]
    exact CriteriaStatus.rank_combine_le hle

/-- The end of an action, and a transient group that is met through one of its members. -/
def errandsDone : List Criteria :=
  [(ofGroup .any [of .actionComplete, void.transient]).transient, of .actionComplete]

/-- The group is noted behind its member. Once both are latched, the status is the same and nothing
is noted; if the end of the action were latched as well, the criteria could only be lifted. -/
theorem errandsDone_settles :
    (evaluateAll stillActing "1/end" errandsDone .all).2.latched = ["1/end.0.1", "1/end.0"] ∧
      (∃ messages,
        evaluateAll { stillActing with latched := ["1/end.0.1", "1/end.0"] } "1/end"
          errandsDone .all = (.ok (.unmet "action has not completed"), ⟨[], messages⟩)) ∧
      ∃ status notes,
        evaluateAll { stillActing with latched := ["1/end.1"] } "1/end" errandsDone .all =
          (.ok status, notes) := by
  have hnotes : (evaluateAll stillActing "1/end" errandsDone .all).2.latched =
      ["1/end.0.1", "1/end.0"] := by
    decide +kernel
  -- one evaluation of the criteria, with whatever it notes
  have heval : evaluateAll stillActing "1/end" errandsDone .all =
      (.ok (.unmet "action has not completed"),
        (evaluateAll stillActing "1/end" errandsDone .all).2) := by
    refine Prod.ext ?_ rfl
    rfl
  obtain ⟨-, -, hagain, hlifted⟩ := latches_only_lift heval
  refine ⟨hnotes, hagain _ fun key => ?_, ?_⟩
  · rw [hnotes]
    exact (or_iff_right List.not_mem_nil).symm
  · obtain ⟨status, notes, h, -⟩ := hlifted ["1/end.1"] fun _ h => absurd h List.not_mem_nil
    exact ⟨status, notes, h⟩

end Criteria

end Playtest
