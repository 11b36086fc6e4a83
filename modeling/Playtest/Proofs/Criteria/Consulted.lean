import Mathlib.Data.List.TakeWhile
import Playtest.Proofs.Criteria.Latches
import Playtest.Proofs.Criteria.OwnKeys
import Playtest.Vision.Coordinator

/-!
# The replies that evaluation asks for

Evaluation does not ask for the replies to all vision criteria of a list. It looks at nothing below
a transient criteria that was latched before, nor at such a criteria itself, and it does not go on
behind an error. `Criteria.consultedAll` are the keys under which it asks for a reply, one after
another, and no other reply has any influence on what it comes to
(`Criteria.evaluateAll_congr_reply`).

The main result, `Criteria.mem_consultedAll_iff`, says which keys these are without going through an
evaluation. The keys that are consulted are those of the vision criteria on a walk, up to the first
fault (`Criteria.consultedFrom_eq`), and a walk goes through places in their order.
-/

namespace Playtest

open Vision.Coordinator (query?)

/-- **In a list whose places increase**, what comes before the first miss is what is a hit together
with everything that is not behind it. -/
theorem mem_takeWhile_iff_of_pairwise {α : Type} {l : List (Place × α)} {p : Place × α → Bool}
    {x : Place × α} (hl : l.Pairwise fun x y => x.1 < y.1) :
    x ∈ l.takeWhile p ↔ x ∈ l ∧ ∀ y ∈ l, p y = true ∨ x.1 < y.1 := by
  induction l with
  | nil => exact iff_of_false List.not_mem_nil fun h => List.not_mem_nil h.1
  | cons first others ih =>
    obtain ⟨hfirst, hothers⟩ := List.pairwise_cons.mp hl
    constructor
    · intro hx
      -- a miss at the front leaves nothing
      cases hp : p first with
      | false =>
        rw [List.takeWhile_cons_of_neg (by rw [hp]; exact Bool.false_ne_true)] at hx
        cases hx
      | true =>
        rw [List.takeWhile_cons_of_pos hp] at hx
        rcases List.mem_cons.mp hx with rfl | hx
        · -- what is in front comes before all others
          exact ⟨List.mem_cons_self,
            List.forall_mem_cons.mpr ⟨.inl hp, fun y hy => .inr (hfirst y hy)⟩⟩
        · obtain ⟨hmem, hall⟩ := (ih hothers).mp hx
          exact ⟨List.mem_cons_of_mem _ hmem, List.forall_mem_cons.mpr ⟨.inl hp, hall⟩⟩
    · -- conversely, `x` cannot come before the first one, so the first one is a hit
      rintro ⟨hx, hall⟩
      obtain ⟨hp, hall⟩ := List.forall_mem_cons.mp hall
      -- nothing in the list comes before the first one
      have hp : p first = true := by
        refine hp.resolve_right fun hlt => ?_
        rcases List.mem_cons.mp hx with rfl | hx
        · exact List.lt_irrefl _ hlt
        · exact List.lt_asymm hlt (hfirst x hx)
      rw [List.takeWhile_cons_of_pos hp]
      rcases List.mem_cons.mp hx with rfl | hx
      · exact List.mem_cons_self
      · exact List.mem_cons_of_mem _ ((ih hothers).mpr ⟨hx, hall⟩)

/-- The keys under which a test with a key asks for a reply. -/
def Test.consulted (key : Key) : Test → List Key
  | vision _ _ => [key]
  | void | path _ _ | value _ | validations _ | actionComplete | custom _ _ => []

/-- A test goes by no other reply than the one that it asks for. -/
theorem Test.evaluate_congr_reply {view : View} {reply : Key → Option Vision.Reply} {key : Key}
    {test : Test} (h : ∀ k ∈ test.consulted key, reply k = view.reply k) :
    test.evaluate key { view with reply } = test.evaluate key view := by
  cases test with
  | vision kind query =>
    have hreply := h key (List.mem_singleton.mpr rfl)
    unfold evaluate
    rw [← hreply]
  | _ => rfl

namespace Criteria

mutual

/-- **The keys under which the evaluation of a criteria asks for a reply.** They are none if the
criteria is of a later version, or is transient and was latched before. -/
def consulted (view : View) (key : Key) : Criteria → List Key
  | single v t test =>
      if Version.current < v then []
      else if t && view.latched.contains key then []
      else test.consulted key
  | group v t _ members =>
      if Version.current < v then []
      else if t && view.latched.contains key then []
      else consultedFrom view key 0 members

/-- The keys under which evaluation asks for a reply, from a position of a list on. An error is the
end of it. -/
def consultedFrom (view : View) (parent : Key) : (position : Nat) → List Criteria → List Key
  | _, [] => []
  | position, c :: cs =>
      consulted view (parent.member position) c ++
        match (evaluate view (parent.member position) c).1 with
        | .error _ => []
        | .ok _ => consultedFrom view parent (position + 1) cs

end

/-- **The keys under which the evaluation of a list asks for a reply.** -/
def consultedAll (view : View) (parent : Key) (cs : List Criteria) : List Key :=
  consultedFrom view parent 0 cs

variable {view : View} {parent key : Key} {cs : List Criteria} {c : Criteria} {place : Place}
  {reply : Key → Option Vision.Reply}

/-! ### No other reply matters -/

mutual

/-- **A criteria goes by no other replies** than those that it asks for. -/
theorem evaluateKeyed_congr_reply : ∀ (c : Criteria) (key : Key) (n : Notes),
    (∀ k ∈ consulted view key c, reply k = view.reply k) →
      evaluateKeyed { view with reply } key c n = evaluateKeyed view key c n
  | single v t test, key, n, h => by
    unfold consulted at h
    unfold evaluateKeyed
    -- a later version and a latch decide before any reply is asked for
    by_cases hv : Version.current < v
    · rw [if_pos hv, if_pos hv]
    by_cases hl : (t && view.latched.contains key) = true
    · rw [if_neg hv, if_neg hv, if_pos hl, if_pos hl]
    rw [if_neg hv, if_neg hl] at h
    have htest : test.evaluate key { view with reply } = test.evaluate key view :=
      -- only the test is left, and it asks for what is consulted
      Test.evaluate_congr_reply h
    have hmessages : ∀ status,
        test.messages { view with reply } status = test.messages view status := fun _ => rfl
    simp only [htest, hmessages]
  | group v t join members, key, n, h => by
    unfold consulted at h
    unfold evaluateKeyed
    by_cases hv : Version.current < v
    · rw [if_pos hv, if_pos hv]
    by_cases hl : (t && view.latched.contains key) = true
    · rw [if_neg hv, if_neg hv, if_pos hl, if_pos hl]
    rw [if_neg hv, if_neg hl] at h
    rw [evaluateFrom_congr_reply members key 0 n h]

/-- **Members go by no other replies** than those that they ask for. -/
theorem evaluateFrom_congr_reply : ∀ (cs : List Criteria) (parent : Key) (position : Nat)
    (n : Notes), (∀ k ∈ consultedFrom view parent position cs, reply k = view.reply k) →
      evaluateFrom { view with reply } parent position cs n = evaluateFrom view parent position cs n
  | [], parent, position, n, _ => by
    unfold evaluateFrom
    rfl
  | c :: cs, parent, position, n, h => by
    unfold consultedFrom at h
    obtain ⟨hfirst, hothers⟩ := List.forall_mem_append.mp h
    have hstatus := evaluateKeyed_fst view (parent.member position) c n
    unfold evaluateFrom
    rw [evaluateKeyed_congr_reply c (parent.member position) n hfirst]
    -- what comes behind is only evaluated, and so only asks, if this one does not fail
    rw [← hstatus] at hothers
    generalize evaluateKeyed view (parent.member position) c n = evaluated at hothers ⊢
    obtain ⟨e | status, notes⟩ := evaluated
    · rfl
    · have hrest := evaluateFrom_congr_reply cs parent (position + 1) notes hothers
      dsimp only
      rw [hrest]

end

/-- **Evaluation goes by no other replies** than those that it asks for. -/
theorem evaluateAll_congr_reply (join : Join)
    (h : ∀ k ∈ consultedAll view parent cs, reply k = view.reply k) :
    evaluateAll { view with reply } parent cs join = evaluateAll view parent cs join := by
  unfold evaluateAll
  rw [evaluateFrom_congr_reply cs parent 0 .none h]

/-! ### Which keys they are -/

/-- Nothing is wrong with a criteria itself that a walk has come to. -/
def isSound (view : View) (parent : Key) (e : Place × Criteria) : Bool :=
  (fault? view.blind (view.known parent) e.1 e.2).isNone

/-- The key under which a criteria that a walk has come to asks for a reply. -/
def asks? (view : View) (parent : Key) (e : Place × Criteria) : Option Key :=
  if passed (view.known parent) e.1 e.2 then none else (query? e.2).map fun _ => parent.along e.1

/-- What a walk asks for until it comes to a fault. -/
def askedOn (view : View) (parent : Key) (visited : List (Place × Criteria)) : List Key :=
  (visited.takeWhile (isSound view parent)).filterMap (asks? view parent)

/-- A walk that begins with a fault asks for nothing. -/
theorem askedOn_of_fault {e : Place × Criteria} (he : isSound view parent e = false)
    (rest : List (Place × Criteria)) :
    askedOn view parent (e :: rest) = [] := by
  unfold askedOn
  rw [List.takeWhile_cons_of_neg (by rw [he]; exact Bool.false_ne_true)]
  rfl

/-- A walk that begins well asks for what the first criteria asks for, and goes on. -/
theorem askedOn_cons {e : Place × Criteria} (he : isSound view parent e = true)
    (rest : List (Place × Criteria)) :
    askedOn view parent (e :: rest) = (asks? view parent e).toList ++ askedOn view parent rest := by
  unfold askedOn
  rw [List.takeWhile_cons_of_pos he, List.filterMap_cons]
  cases asks? view parent e <;> rfl

/-- A walk that has gone well asks for what it asks for, and goes on. -/
theorem askedOn_append {visited : List (Place × Criteria)}
    (h : ∀ e ∈ visited, isSound view parent e = true) (rest : List (Place × Criteria)) :
    askedOn view parent (visited ++ rest) = askedOn view parent visited ++
      askedOn view parent rest := by
  unfold askedOn
  rw [List.takeWhile_append_of_pos h, List.takeWhile_eq_self_iff.mpr h, List.filterMap_append]

/-- A walk that has come to a fault does not go on. -/
theorem askedOn_append_of_fault {visited : List (Place × Criteria)}
    (h : ∃ e ∈ visited, isSound view parent e = false)
    (rest : List (Place × Criteria)) :
      askedOn view parent (visited ++ rest) = askedOn view parent visited := by
  obtain ⟨e, he, hs⟩ := h
  induction visited with
  | nil => cases he
  -- by the first criteria of the walk: either it is the fault, or the fault is among the others
  | cons first others ih =>
    rw [List.cons_append]
    cases hfirst : isSound view parent first with
    | false => rw [askedOn_of_fault hfirst, askedOn_of_fault hfirst]
    | true =>
      have hothers : e ∈ others := by
        refine (List.mem_cons.mp he).resolve_left ?_
        rintro rfl
        exact Bool.false_ne_true (hs.symm.trans hfirst)
      rw [askedOn_cons hfirst, askedOn_cons hfirst, ih hothers]

/-- A criteria of a later version is the end of a walk. -/
theorem askedOn_of_later (hv : Version.current < c.apiVersion) (rest : List (Place × Criteria)) :
    askedOn view key (([], c) :: rest) = [] := by
  refine askedOn_of_fault ?_ rest
  unfold isSound
  rw [fault?_of_later hv]
  rfl

/-- A criteria that is passed over asks for nothing. -/
theorem askedOn_of_passed (hv : ¬ Version.current < c.apiVersion)
    (hp : passed (view.known key) [] c = true) :
    askedOn view key [([], c)] = [] := by
  have hsound : isSound view key ([], c) = true := by
    unfold isSound
    rw [fault?_of_passed hv hp]
    rfl
  have hasks : asks? view key ([], c) = none := if_pos hp
  rw [askedOn_cons hsound, hasks]
  rfl

/-- A test of another kind than vision asks for nothing, whether or not it is at fault. -/
theorem askedOn_of_query?_eq_none (h : query? c = none) : askedOn view key [([], c)] = [] := by
  have hasks : asks? view key ([], c) = none := by
    unfold asks?
    rw [h, Option.map_none, ite_self]
  cases hsound : isSound view key ([], c) with
  | false => exact askedOn_of_fault hsound []
  | true =>
    rw [askedOn_cons hsound, hasks]
    rfl

/-- A test that is looked at asks for its reply. -/
theorem askedOn_single {v : Version} {t : Bool} (test : Test) (hv : ¬ Version.current < v)
    (hp : passed (view.known key) [] (single v t test) = false) :
    askedOn view key [([], single v t test)] = test.consulted key := by
  cases test with
  | vision kind query =>
    -- nothing is in front of it that could have failed, and it has not passed yet
    have hsound : isSound view key ([], single v t (.vision kind query)) = true := by
      unfold isSound
      rw [fault?_of_looked (c := single v t (.vision kind query)) hv hp]
      rfl
    have hasks : asks? view key ([], single v t (.vision kind query)) = some key := by
      unfold asks?
      rw [hp]
      rfl
    rw [askedOn_cons hsound, hasks]
    rfl
  | _ => exact askedOn_of_query?_eq_none rfl

/-- What a walk inside a member asks for has the key of the member in front. -/
theorem askedOn_inside (position : Nat) (visited : List (Place × Criteria)) :
    askedOn view parent (visited.map fun e => (position :: e.1, e.2)) =
      askedOn view (parent.member position) visited := by
  unfold askedOn
  rw [List.takeWhile_map, List.filterMap_map]
  rfl

/-- A criteria by itself fails with the first fault on its walk. -/
theorem failure?_evaluate (view : View) (key : Key) (c : Criteria) :
    failure? (evaluate view key c).1 =
      (walk (passed (view.known key)) c).findSome? fun e =>
        fault? view.blind (view.known key) e.1 e.2 := by
  have htells := (evaluateKeyed_tells view c key .none).fst
  change (evaluate view key c).1 = _ at htells
  rw [← failure?_evaluateAt, htells]
  rcases evaluateAt view.blind (view.known key) c with e | ⟨status, places⟩ <;> rfl

mutual

/-- **What a criteria consults** is what a walk through it asks for until it comes to a fault. -/
theorem consulted_eq (view : View) : ∀ (c : Criteria) (key : Key),
    consulted view key c = askedOn view key (walk (passed (view.known key)) c)
  | single v t test, key => by
    unfold consulted walk
    by_cases hv : Version.current < v
    · rw [if_pos hv, askedOn_of_later (c := single v t test) hv]
    rw [if_neg hv]
    by_cases hl : (t && view.latched.contains key) = true
    · rw [if_pos hl, askedOn_of_passed (c := single v t test) hv hl]
    · rw [if_neg hl, askedOn_single test hv (Bool.eq_false_iff.mpr hl)]
  | group v t join members, key => by
    unfold consulted walk
    -- a later version is a fault, and a latch is where the walk stops
    by_cases hv : Version.current < v
    · rw [if_pos hv, askedOn_of_later (c := group v t join members) hv]
    rw [if_neg hv]
    by_cases hl : (t && view.latched.contains key) = true
    · have hp : passed (view.known key) [] (group v t join members) = true := hl
      rw [if_pos hl, if_pos hp, askedOn_of_passed (c := group v t join members) hv hp]
    have hp : passed (view.known key) [] (group v t join members) = false :=
      Bool.eq_false_iff.mpr hl
    -- a group that is looked into is not at fault itself, and asks for nothing itself
    have hsound : isSound view key ([], group v t join members) = true := by
      unfold isSound
      rw [fault?_of_looked (c := group v t join members) hv hp]
      rfl
    have hasks : asks? view key ([], group v t join members) = none := by
      unfold asks?
      rw [hp]
      rfl
    rw [if_neg hl, hp, if_neg Bool.false_ne_true, askedOn_cons hsound, hasks,
      consultedFrom_eq view members key 0]
    rfl

/-- **What is consulted** is what a walk asks for until it comes to a fault. -/
theorem consultedFrom_eq (view : View) : ∀ (cs : List Criteria) (parent : Key) (position : Nat),
    consultedFrom view parent position cs =
      askedOn view parent (walkFrom (passed (view.known parent)) position cs)
  | [], parent, position => by
    unfold consultedFrom walkFrom
    rfl
  | c :: cs, parent, position => by
    have hfirst := consulted_eq view c (parent.member position)
    have hothers := consultedFrom_eq view cs parent (position + 1)
    have hfailure := failure?_evaluate view (parent.member position) c
    unfold consultedFrom walkFrom
    rw [hfirst, hothers, ← askedOn_inside]
    generalize (evaluate view (parent.member position) c).1 = evaluated at hfailure ⊢
    cases evaluated with
    -- this member has failed, so there is a fault on its walk, and nothing behind that is asked for
    | error e =>
      obtain ⟨visited, hvisited, hfault⟩ := List.exists_of_findSome?_eq_some hfailure.symm
      have hfault : isSound view parent (position :: visited.1, visited.2) = false := by
        change (fault? view.blind (view.known (parent.member position)) visited.1
          visited.2).isNone = false
        rw [hfault]
        rfl
      rw [List.append_nil]
      exact (askedOn_append_of_fault ⟨_, List.mem_map_of_mem hvisited, hfault⟩ _).symm
    -- this member has not failed, so its walk is without a fault, and the others follow
    | ok status =>
      have hsound : ∀ e ∈ (walk (passed (view.known (parent.member position))) c).map
          (fun e => (position :: e.1, e.2)), isSound view parent e = true := by
        intro e he
        obtain ⟨visited, hvisited, rfl⟩ := List.mem_map.mp he
        exact Option.isNone_iff_eq_none.mpr (List.findSome?_eq_none_iff.mp hfailure.symm
          visited hvisited)
      exact (askedOn_append hsound _).symm

end

/-- A place is **shadowed** by latches if the criteria there, or one above it, is transient and was
latched. -/
def Shadowed (latched : List Key) (parent : Key) (cs : List Criteria) (place : Place) : Prop :=
  ∃ above c, above <+: place ∧ lookup? cs above = some c ∧ c.isTransient = true ∧
    parent.along above ∈ latched

/-- Nothing casts a shadow on a place that is live, unless the criteria there was latched itself. -/
theorem not_shadowed_iff (h : lookup? cs place = some c) : ¬ Shadowed view.latched parent cs place ↔
    Live view parent cs place ∧ ¬ (c.isTransient = true ∧ parent.along place ∈ view.latched) := by
  constructor
  · intro hs
    refine ⟨fun above d hprefix _ hd hl => hs ⟨above, d, hprefix, hd, hl⟩, fun hl => ?_⟩
    exact hs ⟨place, c, List.prefix_rfl, h, hl⟩
  · rintro ⟨hlive, hown⟩ ⟨above, d, hprefix, hd, hl⟩
    -- above the place it is the place itself or a place further up
    by_cases heq : above = place
    · subst heq
      obtain rfl : c = d := Option.some.inj (h.symm.trans hd)
      exact hown hl
    · exact hlive above d hprefix heq hd hl

/-- A walk goes well up to a place if all faults are behind it. -/
theorem forall_isSound_or_lt_iff :
    (∀ e ∈ walkFrom (passed (view.known parent)) 0 cs, isSound view parent e = true ∨ place < e.1) ↔
      ∀ place' e, FaultAt view parent cs place' e → place < place' := by
  constructor
  · intro hall place' e hfault
    -- a fault is a criteria on the walk that is not sound, so it is not in front of the place
    obtain ⟨d, hmem, he⟩ := faultAt_iff.mp hfault
    refine (hall _ hmem).resolve_left fun hsound => ?_
    rw [isSound, he] at hsound
    cases hsound
  · -- a criteria that is not sound is a fault, and faults are behind the place
    rintro hall ⟨place', d⟩ hmem
    cases hsound : isSound view parent (place', d) with
    | true => exact .inl rfl
    | false =>
      have hsome : (fault? view.blind (view.known parent) place' d).isNone ≠ true :=
        ne_true_of_eq_false hsound
      obtain ⟨e, he⟩ := Option.ne_none_iff_exists'.mp (mt Option.isNone_iff_eq_none.mpr hsome)
      exact .inr (hall place' e (faultAt_iff.mpr ⟨d, hmem, he⟩))

/-- **Which replies are asked for**: those of the vision criteria that no latch casts a shadow on,
as far as they are in front of all faults. -/
theorem mem_consultedAll_iff : key ∈ consultedAll view parent cs ↔
    ∃ place c query, lookup? cs place = some c ∧ query? c = some query ∧ parent.along place = key ∧
      ¬ Shadowed view.latched parent cs place ∧ ∀ place' e, FaultAt view parent cs place' e →
        place < place' := by
  unfold consultedAll
  rw [consultedFrom_eq, askedOn, List.mem_filterMap]
  have hsorted := pairwise_walkFrom cs (passed (view.known parent)) 0
  constructor
  · -- what is asked for is on the walk, in front of every fault, and not passed over
    rintro ⟨⟨place, c⟩, hmem, hasks⟩
    obtain ⟨hmem, hall⟩ := (mem_takeWhile_iff_of_pairwise hsorted).mp hmem
    obtain ⟨hfind, hlive⟩ := mem_walkFrom_passed_iff.mp hmem
    unfold asks? at hasks
    split at hasks
    · cases hasks
    next hp =>
    obtain ⟨query, hquery, hkey⟩ := Option.map_eq_some_iff.mp hasks
    have hown := passed_eq_false_iff.mp (Bool.eq_false_iff.mpr hp)
    have hshadow := (not_shadowed_iff hfind).mpr ⟨hlive, hown⟩
    exact ⟨place, c, query, hfind, hquery, hkey, hshadow, forall_isSound_or_lt_iff.mp hall⟩
  · -- a vision criteria in no shadow is on the walk, and all faults are behind it
    rintro ⟨place, c, query, hfind, hquery, rfl, hshadow, hall⟩
    obtain ⟨hlive, hown⟩ := (not_shadowed_iff hfind).mp hshadow
    have hmem := mem_walkFrom_passed_iff.mpr ⟨hfind, hlive⟩
    refine ⟨(place, c), (mem_takeWhile_iff_of_pairwise hsorted).mpr ⟨hmem,
      forall_isSound_or_lt_iff.mpr hall⟩, ?_⟩
    unfold asks?
    rw [passed_eq_false_iff.mpr hown, hquery]
    rfl

end Criteria

end Playtest
