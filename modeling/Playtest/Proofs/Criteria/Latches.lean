import Playtest.Criteria.Evaluation
import Playtest.Proofs.Criteria.Keys

/-!
# Latches

All criteria of a list are evaluated, whatever comes of the ones in front, and transient ones that
are met are noted under their keys. What a whole list comes to is therefore told by what each of its
members comes to by itself:

* `Criteria.evaluateAll_all`: a list under `All` that can be evaluated is met if all its members
  are, and only resolved by a timeout if one of them is,
* `Criteria.mem_latched_evaluateAll_iff`: a transient member is noted just if it is met and was not
  latched before. Nothing else is noted under its key, neither another member nor anything inside
  one.

Evaluation hands its notes on from one criteria to the next. `Criteria.evaluateKeyed_append` says
that what was noted before does not matter, which is what lets the members be looked at one by one.
-/

namespace Playtest

namespace Notes

/-- Notes behind other notes. -/
def append (n n' : Notes) : Notes := ⟨n.latched ++ n'.latched, n.messages ++ n'.messages⟩

@[simp] theorem append_none (n : Notes) : n.append none = n := by
  rw [append, none, List.append_nil, List.append_nil]

/-- Settling a criteria adds to the end of the notes, whatever is in front. -/
theorem append_settle (n n' : Notes) (c : Criteria) (key : Key) (status : CriteriaStatus) :
    (n.append n').settle c key status = n.append (n'.settle c key status) := by
  unfold settle
  split
  · simp only [latch, say, append, List.append_assoc]
  · rfl

end Notes

namespace CriteriaStatus

variable {statuses : List CriteriaStatus}

/-- Under `All`, statuses come to `met` if all of them are. -/
theorem combine_all_eq_met_iff : combine .all statuses = met ↔ ∀ s ∈ statuses, s = met := by
  unfold combine
  dsimp only
  split
  · next reason rest hr =>
    -- the first reason is that of a status that is not met
    have hmem : reason ∈ statuses.filterMap reason? := by
      rw [hr]
      exact List.mem_cons_self
    obtain ⟨s, hs, hreason⟩ := List.mem_filterMap.mp hmem
    refine iff_of_false (fun h => by cases h) fun hall => ?_
    rw [hall s hs] at hreason
    cases hreason
  · next hr =>
    have hnone : ∀ s ∈ statuses, s.reason? = none := List.filterMap_eq_nil_iff.mp hr
    -- nothing is unmet, so a timeout that has run out is all that could be in the way
    split
    · next ht =>
      refine iff_of_false (fun h => by cases h) fun hall => ?_
      cases hall _ (List.contains_iff_mem.mp ht)
    · next ht =>
      refine iff_of_true rfl fun s hs => ?_
      cases s with
      | met => rfl
      | unmet reason => cases hnone _ hs
      | resolvedByTimeout => exact absurd (List.contains_iff_mem.mpr hs) ht

/-- Under `All`, a timeout resolves the whole only if it resolves one of them. -/
theorem mem_of_combine_all (h : combine .all statuses = resolvedByTimeout) :
    resolvedByTimeout ∈ statuses := by
  unfold combine at h
  dsimp only at h
  split at h
  · cases h
  split at h
  · next ht => exact List.contains_iff_mem.mp ht
  · cases h

end CriteriaStatus

namespace Criteria

variable {view : View} {key parent k : Key} {c : Criteria} {cs : List Criteria}
  {status : CriteriaStatus}

/-! ### What was noted before -/

mutual

/-- **Evaluation does not look at notes**, but only adds to them. -/
theorem evaluateKeyed_append (view : View) (key : Key) : ∀ (c : Criteria) (n n' : Notes),
    evaluateKeyed view key c (n.append n') =
      ((evaluateKeyed view key c n').1, n.append (evaluateKeyed view key c n').2)
  | single v t test, n, n' => by
    unfold evaluateKeyed
    -- a later version and a latch decide without the notes
    split
    · rfl
    split
    · rfl
    cases test.evaluate key view with
    | error e => rfl
    | ok status =>
      -- a status is settled behind what was noted before
      dsimp only
      rw [← Notes.append_settle]
      simp only [Notes.append, List.append_assoc]
  | group v t join members, n, n' => by
    -- the members add to the notes, and the group settles behind them
    have hmembers := evaluateFrom_append view key 0 members n n'
    unfold evaluateKeyed
    split
    · rfl
    split
    · rfl
    rw [hmembers]
    rcases evaluateFrom view key 0 members n' with ⟨_ | statuses, notes⟩
    · rfl
    · dsimp only
      rw [Notes.append_settle]

/-- The same for members: each of them only adds to what it is handed. -/
theorem evaluateFrom_append (view : View) (parent : Key) :
    ∀ (position : Nat) (cs : List Criteria) (n n' : Notes),
      evaluateFrom view parent position cs (n.append n') =
        ((evaluateFrom view parent position cs n').1,
          n.append (evaluateFrom view parent position cs n').2)
  | _, [], _, _ => by
    unfold evaluateFrom
    rfl
  | position, c :: cs, n, n' => by
    have hfirst := evaluateKeyed_append view (parent.member position) c n n'
    unfold evaluateFrom
    rw [hfirst]
    -- an error of the first one is the end of it, and else its notes are handed on
    rcases evaluateKeyed view (parent.member position) c n' with ⟨_ | status, notes⟩
    · rfl
    · have hrest := evaluateFrom_append view parent (position + 1) cs n notes
      dsimp only
      rw [hrest]
      rcases evaluateFrom view parent (position + 1) cs notes with ⟨_ | statuses, notes⟩ <;> rfl

end

/-! ### Members by themselves -/

/-- What is noted when a criteria is evaluated by itself. -/
def latches (view : View) (key : Key) (c : Criteria) : List Key :=
  (evaluateKeyed view key c .none).2.latched

/-- A criteria comes to the same whatever was noted before. -/
theorem evaluateKeyed_fst (view : View) (key : Key) (c : Criteria) (n : Notes) :
    (evaluateKeyed view key c n).1 = (evaluate view key c).1 := by
  have happend := evaluateKeyed_append view key c n .none
  rw [Notes.append_none] at happend
  rw [happend]
  rfl

/-- It notes what it notes by itself, behind what was noted before. -/
theorem latched_evaluateKeyed (view : View) (key : Key) (c : Criteria) (n : Notes) :
    (evaluateKeyed view key c n).2.latched = n.latched ++ latches view key c := by
  have happend := evaluateKeyed_append view key c n .none
  rw [Notes.append_none] at happend
  rw [happend]
  rfl

/-- If criteria can be evaluated one behind the other, then each of them can by itself, and the
notes are what each of them notes. -/
theorem evaluateFrom_ok {statuses : List CriteriaStatus} :
    ∀ {position : Nat} {n : Notes}, (evaluateFrom view parent position cs n).1 = .ok statuses →
      (cs.zipIdx position).map (fun c => (evaluate view (parent.member c.2) c.1).1) =
          statuses.map .ok ∧
        (evaluateFrom view parent position cs n).2.latched =
          n.latched ++ (cs.zipIdx position).flatMap fun c =>
            latches view (parent.member c.2) c.1 := by
  induction cs generalizing statuses with
  | nil =>
    intro position n h
    unfold evaluateFrom at h ⊢
    cases h
    exact ⟨rfl, (List.append_nil _).symm⟩
  | cons c rest ih =>
    intro position n h
    have hstatus := evaluateKeyed_fst view (parent.member position) c n
    have hlatched := latched_evaluateKeyed view (parent.member position) c n
    unfold evaluateFrom at h ⊢
    -- an error of the first one would have been the error of the whole
    rcases hfirst : evaluateKeyed view (parent.member position) c n with ⟨_ | status, notes⟩
    · rw [hfirst] at h
      cases h
    rw [hfirst] at h hstatus hlatched
    dsimp only at h hlatched ⊢
    rcases hrest : evaluateFrom view parent (position + 1) rest notes with ⟨_ | statuses, notes'⟩
    · rw [hrest] at h
      cases h
    rw [hrest] at h
    cases h
    -- the first one, and then the others with what it has noted
    have hok : (evaluateFrom view parent (position + 1) rest notes).1 = .ok statuses := by
      rw [hrest]
    obtain ⟨hall, hnotes⟩ := ih hok
    rw [hrest] at hnotes
    rw [List.zipIdx_cons, List.map_cons, List.map_cons, List.flatMap_cons]
    refine ⟨by rw [hall, ← hstatus], ?_⟩
    rw [hnotes, hlatched, List.append_assoc]

/-- If a list cannot be evaluated, then one of its members cannot be either. -/
theorem evaluateFrom_error {e : EvaluationError} :
    ∀ {position : Nat} {n : Notes}, (evaluateFrom view parent position cs n).1 = .error e →
      ∃ c ∈ cs.zipIdx position, (evaluate view (parent.member c.2) c.1).1 = .error e := by
  induction cs with
  | nil =>
    intro position n h
    unfold evaluateFrom at h
    cases h
  | cons c rest ih =>
    intro position n h
    have hstatus := evaluateKeyed_fst view (parent.member position) c n
    rw [List.zipIdx_cons]
    unfold evaluateFrom at h
    -- either the first one fails, or one of those behind it does
    rcases hfirst : evaluateKeyed view (parent.member position) c n with ⟨_ | status, notes⟩
    · rw [hfirst] at h hstatus
      cases h
      exact ⟨(c, position), List.mem_cons_self, hstatus.symm⟩
    rw [hfirst] at h
    dsimp only at h
    rcases hrest : evaluateFrom view parent (position + 1) rest notes with ⟨_ | statuses, notes'⟩
    · rw [hrest] at h
      cases h
      obtain ⟨c', hc', heval⟩ := ih (congrArg Prod.fst hrest)
      exact ⟨c', List.mem_cons_of_mem _ hc', heval⟩
    · rw [hrest] at h
      cases h

/-- The members of a list, with their positions. -/
theorem mem_zipIdx_iff {i : Nat} : (c, i) ∈ cs.zipIdx ↔ cs[i]? = some c :=
  List.mk_mem_zipIdx_iff_getElem?

/-- A list that cannot be evaluated has a member that cannot be. -/
theorem evaluateAll_error {join : Join} {e : EvaluationError}
    (h : (evaluateAll view parent cs join).1 = .error e) :
    ∃ i c, cs[i]? = some c ∧ (evaluate view (parent.member i) c).1 = .error e := by
  unfold evaluateAll at h
  rcases hfrom : evaluateFrom view parent 0 cs .none with ⟨e' | statuses, notes⟩
  · rw [hfrom] at h
    cases h
    obtain ⟨⟨c, i⟩, hc, heval⟩ := evaluateFrom_error (congrArg Prod.fst hfrom)
    exact ⟨i, c, mem_zipIdx_iff.mp hc, heval⟩
  · rw [hfrom] at h
    cases h

/-- **A list under `All`** that can be evaluated is told by its members. -/
theorem evaluateAll_all (h : (evaluateAll view parent cs .all).1 = .ok status) :
    (∀ i c, cs[i]? = some c → ∃ s, (evaluate view (parent.member i) c).1 = .ok s) ∧
      (status = .met ↔ ∀ i c, cs[i]? = some c → (evaluate view (parent.member i) c).1 = .ok .met) ∧
        (status = .resolvedByTimeout →
          ∃ i c, cs[i]? = some c ∧ (evaluate view (parent.member i) c).1 =
            .ok .resolvedByTimeout) := by
  unfold evaluateAll at h
  rcases hfrom : evaluateFrom view parent 0 cs .none with ⟨_ | statuses, notes⟩
  · rw [hfrom] at h
    cases h
  rw [hfrom] at h
  obtain rfl : CriteriaStatus.combine .all statuses = status := Except.ok.inj h
  obtain ⟨hall, -⟩ := evaluateFrom_ok (congrArg Prod.fst hfrom)
  -- every member has its status, and every status is that of a member
  have forward : ∀ i c, cs[i]? = some c →
      ∃ s ∈ statuses, (evaluate view (parent.member i) c).1 = .ok s := by
    intro i c hc
    have hmem := List.mem_map_of_mem (f := fun c => (evaluate view (parent.member c.2) c.1).1)
      (mem_zipIdx_iff.mpr hc)
    rw [hall] at hmem
    obtain ⟨s, hs, heq⟩ := List.mem_map.mp hmem
    exact ⟨s, hs, heq.symm⟩
  have backward : ∀ s ∈ statuses,
      ∃ i c, cs[i]? = some c ∧ (evaluate view (parent.member i) c).1 = .ok s := by
    intro s hs
    have hmem : (.ok s : Except EvaluationError CriteriaStatus) ∈ statuses.map .ok :=
      List.mem_map_of_mem hs
    rw [← hall] at hmem
    obtain ⟨⟨c, i⟩, hc, heval⟩ := List.mem_map.mp hmem
    exact ⟨i, c, mem_zipIdx_iff.mp hc, heval⟩
  refine ⟨fun i c hc => ?_, ?_, fun ht => ?_⟩
  · obtain ⟨s, -, heval⟩ := forward i c hc
    exact ⟨s, heval⟩
  · rw [CriteriaStatus.combine_all_eq_met_iff]
    constructor
    · intro hmet i c hc
      obtain ⟨s, hs, heval⟩ := forward i c hc
      rw [heval, hmet s hs]
    · intro hmet s hs
      obtain ⟨i, c, hc, heval⟩ := backward s hs
      exact Except.ok.inj (heval.symm.trans (hmet i c hc))
  · exact backward _ (CriteriaStatus.mem_of_combine_all ht)

/-! ### What is latched -/

/-- A transient criteria that is met is noted under its own key. -/
theorem mem_latched_settle {n : Notes} (c : Criteria) {entries : List (Key × Criteria)}
    (hc : (key, c) ∈ entries) (hk : k ∈ (n.settle c key status).latched) :
    k ∈ n.latched ∨ ∃ c', (k, c') ∈ entries := by
  unfold Notes.settle at hk
  split at hk
  · -- it was noted before, or it is the key that has just been settled
    rcases List.mem_append.mp hk with hk | hk
    · exact .inl hk
    · obtain rfl := List.mem_singleton.mp hk
      exact .inr ⟨c, hc⟩
  · exact .inl hk

mutual

/-- Only keys of the criteria and of what is inside it are noted. -/
theorem mem_latched_evaluateKeyed (view : View) (key : Key) : ∀ (c : Criteria) (n : Notes),
    k ∈ (evaluateKeyed view key c n).2.latched → k ∈ n.latched ∨ ∃ c', (k, c') ∈ keyed key c
  | single v t test, n => by
    -- a later version or a latch notes nothing at all
    unfold evaluateKeyed
    split
    · exact .inl
    split
    · exact .inl
    cases test.evaluate key view with
    | error e => exact .inl
    | ok status => exact mem_latched_settle (single v t test) List.mem_cons_self
  | group v t join members, n => by
    have hmembers := mem_latched_evaluateFrom view key 0 members n
    have hinside : (∃ c', (k, c') ∈ keyedFrom key 0 members) →
        ∃ c', (k, c') ∈ keyed key (group v t join members) :=
      fun ⟨c', hmem⟩ => ⟨c', List.mem_cons_of_mem _ hmem⟩
    unfold evaluateKeyed
    split
    · exact .inl
    split
    · exact .inl
    -- what the members have noted is inside the group, and the group itself may come last
    rcases hfrom : evaluateFrom view key 0 members n with ⟨_ | statuses, notes⟩
    all_goals
      rw [hfrom] at hmembers
      intro hk
    · exact (hmembers hk).imp_right hinside
    · rcases mem_latched_settle (group v t join members) List.mem_cons_self hk with hk | hk
      · exact (hmembers hk).imp_right hinside
      · exact .inr hk

/-- The same for members, from any position on. -/
theorem mem_latched_evaluateFrom (view : View) (parent : Key) :
    ∀ (position : Nat) (cs : List Criteria) (n : Notes),
      k ∈ (evaluateFrom view parent position cs n).2.latched →
        k ∈ n.latched ∨ ∃ c', (k, c') ∈ keyedFrom parent position cs
  | _, [], _ => by
    unfold evaluateFrom
    exact .inl
  | position, c :: cs, n => by
    have hfirst := mem_latched_evaluateKeyed view (parent.member position) c n
    have hinside : (∃ c', (k, c') ∈ keyed (parent.member position) c) →
        ∃ c', (k, c') ∈ keyedFrom parent position (c :: cs) :=
      fun ⟨c', hmem⟩ => ⟨c', List.mem_append_left _ hmem⟩
    have hbehind : (∃ c', (k, c') ∈ keyedFrom parent (position + 1) cs) →
        ∃ c', (k, c') ∈ keyedFrom parent position (c :: cs) :=
      fun ⟨c', hmem⟩ => ⟨c', List.mem_append_right _ hmem⟩
    unfold evaluateFrom
    rcases hkeyed : evaluateKeyed view (parent.member position) c n with ⟨_ | status, notes⟩
    all_goals rw [hkeyed] at hfirst
    · exact fun hk => (hfirst hk).imp_right hinside
    -- what the first one has not noted was noted by those behind it
    have hrest := mem_latched_evaluateFrom view parent (position + 1) cs notes
    dsimp only
    rcases hfrom : evaluateFrom view parent (position + 1) cs notes with ⟨_ | statuses, notes'⟩
    all_goals
      rw [hfrom] at hrest
      intro hk
      rcases hrest hk with hk | hk
      · exact (hfirst hk).imp_right hinside
      · exact .inr (hbehind hk)

end

/-- A criteria that was latched **stays met**, if it can be evaluated at all. -/
theorem evaluate_of_latched (ht : c.isTransient) (hl : key ∈ view.latched)
    (h : (evaluate view key c).1 = .ok status) : (evaluate view key c).1 = .ok .met := by
  have hcontains : (c.isTransient && view.latched.contains key) = true := by
    rw [ht, List.contains_iff_mem.mpr hl, Bool.and_self]
  rw [← evaluateKeyed_fst view key c .none] at h ⊢
  -- for a test and for a group, the latch is asked before anything else
  cases c <;> unfold evaluateKeyed at h ⊢ <;> dsimp only [isTransient] at hcontains
  all_goals
    split at h
    · cases h
    · next hv => rw [if_neg hv, if_pos hcontains]

/-- To be settled as transient is to be noted if met. -/
theorem mem_settle_iff {n : Notes} (ht : c.isTransient) (hn : key ∉ n.latched) :
    key ∈ (n.settle c key status).latched ↔ status = .met := by
  unfold Notes.settle
  rw [ht, Bool.true_and]
  split
  · next hs => exact iff_of_true (List.mem_append_right _ List.mem_cons_self) (beq_iff_eq.mp hs)
  · next hs => exact iff_of_false hn fun hm => hs (beq_iff_eq.mpr hm)

/-- Whatever is noted has its key from the criteria itself or from something inside it. -/
theorem mem_latches (h : k ∈ latches view key c) : k = key ∨ ∃ i, Key.Below (key.member i) k := by
  rcases mem_latched_evaluateKeyed view key c .none h with h | ⟨c', hc'⟩
  · exact absurd h List.not_mem_nil
  · cases c with
    | single v t test => exact .inl (congrArg Prod.fst (List.mem_singleton.mp hc'))
    | group v t join members =>
      rcases List.mem_cons.mp hc' with heq | hc'
      · exact .inl (congrArg Prod.fst heq)
      · exact .inr (below_member_of_mem_keyedFrom key members 0 _ hc')

/-- **A transient criteria is noted** just if it is met and was not latched before. -/
theorem mem_latches_self_iff (ht : c.isTransient) (h : (evaluate view key c).1 = .ok status) :
    key ∈ latches view key c ↔ status = .met ∧ key ∉ view.latched := by
  rw [← evaluateKeyed_fst view key c .none] at h
  unfold latches
  by_cases hl : key ∈ view.latched
  · refine iff_of_false (fun hmem => ?_) fun hr => hr.2 hl
    -- nothing is looked at any more
    have hcontains : (c.isTransient && view.latched.contains key) = true := by
      rw [ht, List.contains_iff_mem.mpr hl, Bool.and_self]
    cases c <;> unfold evaluateKeyed at hmem <;> dsimp only [isTransient] at hcontains
    all_goals
      rw [if_pos hcontains] at hmem
      split at hmem <;> cases hmem
  · rw [and_iff_left hl]
    have hcontains : ¬ (c.isTransient && view.latched.contains key) = true := fun hc =>
      hl (List.contains_iff_mem.mp (Bool.and_eq_true_iff.mp hc).2)
    -- it is not latched, so it is looked at, and noted at the very end
    cases c with
    | single v t test =>
      unfold evaluateKeyed at h ⊢
      dsimp only [isTransient] at hcontains
      rw [if_neg hcontains] at h ⊢
      split at h
      · cases h
      next hv =>
      rw [if_neg hv]
      cases he : test.evaluate key view with
      | error e => rw [he] at h; cases h
      | ok s =>
        rw [he] at h
        cases h
        exact mem_settle_iff ht List.not_mem_nil
    | group v t join members =>
      have hmembers := mem_latched_evaluateFrom (k := key) view key 0 members .none
      unfold evaluateKeyed at h ⊢
      dsimp only [isTransient] at hcontains
      rw [if_neg hcontains] at h ⊢
      split at h
      · cases h
      next hv =>
      rw [if_neg hv]
      rcases hfrom : evaluateFrom view key 0 members .none with ⟨_ | statuses, notes⟩
      · rw [hfrom] at h
        cases h
      · rw [hfrom] at h hmembers
        cases h
        refine mem_settle_iff ht fun hn => ?_
        -- what is inside has keys of its own
        rcases hmembers hn with hn | ⟨c', hc'⟩
        · exact absurd hn List.not_mem_nil
        · obtain ⟨i, hbelow⟩ := below_member_of_mem_keyedFrom key members 0 _ hc'
          exact Key.not_below_outer key i hbelow

/-- **What a list notes under the key of a transient member** is whether that member is met, if it
was not latched before. -/
theorem mem_latched_evaluateAll_iff {join : Join} {i : Nat}
    (h : (evaluateAll view parent cs join).1 = .ok status) (hi : cs[i]? = some c)
    (ht : c.isTransient) :
    parent.member i ∈ (evaluateAll view parent cs join).2.latched ↔
      (evaluate view (parent.member i) c).1 = .ok .met ∧ parent.member i ∉ view.latched := by
  unfold evaluateAll at h ⊢
  rcases hfrom : evaluateFrom view parent 0 cs .none with ⟨_ | statuses, notes⟩
  · rw [hfrom] at h
    cases h
  obtain ⟨hall, hlatched⟩ := evaluateFrom_ok (congrArg Prod.fst hfrom)
  rw [hfrom] at hlatched
  -- the member can be evaluated by itself
  have hmem := List.mem_map_of_mem (f := fun c => (evaluate view (parent.member c.2) c.1).1)
    (mem_zipIdx_iff.mpr hi)
  rw [hall] at hmem
  obtain ⟨s, -, hs⟩ := List.mem_map.mp hmem
  have hself := mem_latches_self_iff ht hs.symm
  rw [← hs, Except.ok.injEq, ← hself]
  change parent.member i ∈ notes.latched ↔ _
  rw [hlatched]
  change parent.member i ∈ (cs.zipIdx 0).flatMap _ ↔ _
  rw [List.mem_flatMap]
  constructor
  · -- a key that is noted by some member is that of the member itself or of something inside it
    rintro ⟨⟨c', j⟩, hj, hnoted⟩
    rcases mem_latches hnoted with heq | ⟨position, hbelow⟩
    · obtain rfl : i = j := Key.member_injective parent heq
      obtain rfl : c = c' := Option.some.inj (hi.symm.trans (mem_zipIdx_iff.mp hj))
      exact hnoted
    · -- and what is inside a member never has the key of another member
      exact absurd hbelow (Key.not_below_inner parent i j position)
  · exact fun hnoted => ⟨(c, i), mem_zipIdx_iff.mpr hi, hnoted⟩

/-- All that a list notes lies below the key of the list. -/
theorem below_of_mem_latched {join : Join} (h : k ∈ (evaluateAll view parent cs join).2.latched) :
    Key.Below parent k := by
  have hfrom := mem_latched_evaluateFrom (k := k) view parent 0 cs .none
  unfold evaluateAll at h
  rcases hcs : evaluateFrom view parent 0 cs .none with ⟨_ | statuses, notes⟩
  -- an evaluation that fails has noted something, too
  all_goals
    rw [hcs] at h hfrom
    rcases hfrom h with h | ⟨c', hc'⟩
    · exact absurd h List.not_mem_nil
    · exact below_of_mem_withKeys hc'

end Criteria

end Playtest
