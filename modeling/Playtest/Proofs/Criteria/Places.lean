import Mathlib.Data.List.Nodup
import Mathlib.Data.List.Pairwise
import Playtest.Proofs.Criteria.Keys

/-!
# Places of criteria

A list of criteria is a forest, since groups have members. Where a criteria stands in it is told by
its **place**: the positions that lead to it, the outermost one first. This module ties the three
ways of naming a criteria together:

* its place, from which `Criteria.lookup?` finds the criteria again,
* its key, which writes the place down behind the key of the list (`Key.along`). No two places are
  written as the same key (`Key.along_injective`), although one key may well be the beginning of
  another,
* its turn in a visit. `Criteria.walk` visits criteria together with their places, from left to
  right and each of them before its members; this is the lexicographic order of places
  (`Criteria.pairwise_walkFrom`). The keys that are handed out are those of the walk
  (`Criteria.withKeys_eq`), so that no key is handed out twice (`Criteria.nodup_withKeys`).

A walk may be told to stop at some criteria and not to look inside of them. It then comes to what is
below no such criteria and to nothing else (`Criteria.mem_walkFrom_iff`).
-/

namespace Playtest

/-- The **place** of a criteria in a list: the positions that lead to it, the outermost one
first. -/
abbrev Place := List Nat

/-! ### Keys of places -/

namespace Key

/-- The key of a place in the list with a key. -/
def along (key : Key) (place : Place) : Key := place.foldl member key

theorem along_cons (key : Key) (i : Nat) (place : Place) :
    key.along (i :: place) = (key.member i).along place := rfl

/-- The key of a place is the key of the list, and then every position behind a dot. -/
theorem toList_along (key : Key) (place : Place) :
    (key.along place).toList = key.toList ++ place.flatMap fun i => '.' :: Nat.toDigits 10 i := by
  induction place generalizing key with
  | nil => exact (List.append_nil _).symm
  | cons i place ih => rw [along_cons, ih, toList_member, List.flatMap_cons, List.append_assoc]

theorem below_along (key : Key) (place : Place) : Below key (key.along place) :=
  ⟨_, (toList_along key place).symm⟩

/-- Behind a position comes the next one, and so a dot, or nothing. -/
theorem head?_flatMap_dot (place : Place) :
    ∀ c ∈ (place.flatMap fun i => '.' :: Nat.toDigits 10 i).head?, c = '.' := by
  intro c hc
  cases place with
  | nil => cases hc
  | cons i place => exact (Option.some.inj hc).symm

/-- **No two places have the same key.** -/
theorem along_injective (key : Key) : Function.Injective key.along := by
  intro place place' h
  have hlist := congrArg String.toList h
  rw [toList_along, toList_along] at hlist
  replace hlist := List.append_cancel_left hlist
  have hdot : ∀ (p : Place), ∀ c ∈ (p.flatMap fun i => '.' :: Nat.toDigits 10 i).head?,
      c.isDigit = false := by
    intro p c hc
    rw [head?_flatMap_dot p c hc]
    rfl
  clear h
  -- position by position: each begins behind a dot and ends where its digits do
  induction place generalizing place' with
  | nil =>
    cases place' with
    | nil => rfl
    | cons j rest => cases hlist
  | cons i place ih =>
    cases place' with
    | nil => cases hlist
    | cons j rest =>
      rw [List.flatMap_cons, List.flatMap_cons, List.cons_append, List.cons_append] at hlist
      obtain ⟨rfl, hrest⟩ := toDigits_append_inj (hdot place) (hdot rest) (List.cons.inj hlist).2
      rw [ih hrest]

end Key

namespace Criteria

/-! ### Finding criteria by their places -/

/-- The members of a group. -/
def members : Criteria → List Criteria
  | single _ _ _ => []
  | group _ _ _ members => members

/-- The criteria at a place inside another one, which is itself at the empty place. -/
def within? : Criteria → Place → Option Criteria
  | c, [] => some c
  | c, i :: place => c.members[i]?.bind fun member => within? member place

/-- **The criteria at a place** of a list. -/
def lookup? (cs : List Criteria) : Place → Option Criteria
  | [] => none
  | i :: place => cs[i]?.bind fun c => within? c place

/-- The way to a place is **clear** if nothing that is found above the place is one to stop at. -/
def Clear (stop : Place → Criteria → Bool) (find : Place → Option Criteria) (place : Place) :
    Prop :=
  ∀ above, above <+: place → above ≠ place → ∀ c, find above = some c → stop above c = false

variable {stop : Place → Criteria → Bool} {find : Place → Option Criteria} {c d : Criteria}
  {cs : List Criteria} {place : Place} {i : Nat}

theorem clear_nil : Clear stop find [] :=
  fun _ hprefix hne => absurd (List.prefix_nil.mp hprefix) hne

/-- The way begins at the root and goes on from the first position. -/
theorem clear_cons_iff : Clear stop find (i :: place) ↔
    (∀ c, find [] = some c → stop [] c = false) ∧
      Clear (fun p => stop (i :: p)) (fun p => find (i :: p)) place := by
  constructor
  · intro hall
    refine ⟨hall [] List.nil_prefix (List.cons_ne_nil _ _).symm, fun above hprefix hne => ?_⟩
    exact hall (i :: above) (List.cons_prefix_cons.mpr ⟨rfl, hprefix⟩) fun he =>
      hne (List.cons.inj he).2
  · -- what is above the place is the root, or is above the rest of the way
    rintro ⟨hroot, hall⟩ above hprefix hne
    rcases List.prefix_cons_iff.mp hprefix with rfl | ⟨rest, rfl, hrest⟩
    · exact hroot
    · exact hall rest hrest fun he => hne (by rw [he])

/-- Inside a criteria, one looks on in the member at the first position. -/
theorem within?_cons (h : c.members[i]? = some d) : (fun p => within? c (i :: p)) = within? d := by
  funext p
  rw [within?, h]
  rfl

/-- The same in a list. -/
theorem lookup?_cons (h : cs[i]? = some c) : (fun p => lookup? cs (i :: p)) = within? c := by
  funext p
  rw [lookup?, h]
  rfl

/-- The way to a place inside a criteria goes through the criteria itself. -/
theorem clear_within_cons_iff (h : c.members[i]? = some d) : Clear stop (within? c) (i :: place) ↔
    stop [] c = false ∧ Clear (fun p => stop (i :: p)) (within? d) place := by
  rw [clear_cons_iff, within?_cons h]
  exact and_congr_left' ⟨fun hroot => hroot c rfl, fun hs _ hc => Option.some.inj hc ▸ hs⟩

/-- The way to a place in a list begins in the member at the first position. -/
theorem clear_lookup_cons_iff (h : cs[i]? = some c) : Clear stop (lookup? cs) (i :: place) ↔
    Clear (fun p => stop (i :: p)) (within? c) place := by
  rw [clear_cons_iff, lookup?_cons h]
  exact and_iff_right fun _ hc => by cases hc

/-! ### Walks -/

mutual

/-- **Visits** a criteria and what is inside it, each with its place and before its members.
Whatever is inside a criteria to stop at is left out. -/
def walk (stop : Place → Criteria → Bool) : Criteria → List (Place × Criteria)
  | single v t test => [([], single v t test)]
  | group v t join members =>
      ([], group v t join members) ::
        if stop [] (group v t join members) then [] else walkFrom stop 0 members

/-- Visits criteria from a position of their list on. -/
def walkFrom (stop : Place → Criteria → Bool) :
    (position : Nat) → List Criteria → List (Place × Criteria)
  | _, [] => []
  | position, c :: cs =>
      (walk (fun place => stop (position :: place)) c).map (fun e => (position :: e.1, e.2))
        ++ walkFrom stop (position + 1) cs

end

/-- Stops nowhere. -/
def nowhere : Place → Criteria → Bool := fun _ _ => false

/-- A walk through a list is made of walks through its members. -/
theorem mem_walkFrom (stop : Place → Criteria → Bool) (cs : List Criteria) :
    ∀ position, (place, d) ∈ walkFrom stop position cs ↔
      ∃ i c rest, cs[i]? = some c ∧ place = (position + i) :: rest ∧
        (rest, d) ∈ walk (fun p => stop ((position + i) :: p)) c := by
  induction cs with
  | nil =>
    intro position
    refine iff_of_false List.not_mem_nil ?_
    rintro ⟨i, c, rest, hi, -⟩
    cases hi
  | cons first others ih =>
    intro position
    unfold walkFrom
    rw [List.mem_append, ih (position + 1), List.mem_map]
    constructor
    · -- it is inside the first one, or inside one of the others, whose positions are one higher
      rintro (⟨⟨rest, d'⟩, hmem, heq⟩ | ⟨i, c, rest, hi, rfl, hmem⟩)
      · obtain ⟨rfl, rfl⟩ := Prod.mk.inj heq
        exact ⟨0, first, rest, rfl, rfl, hmem⟩
      · refine ⟨i + 1, c, rest, hi, ?_, ?_⟩
        · rw [Nat.add_right_comm, Nat.add_assoc]
        · rwa [Nat.add_right_comm, Nat.add_assoc] at hmem
    · rintro ⟨i, c, rest, hi, rfl, hmem⟩
      cases i with
      | zero =>
        obtain rfl : first = c := Option.some.inj hi
        exact .inl ⟨(rest, d), hmem, rfl⟩
      | succ i =>
        refine .inr ⟨i, c, rest, hi, ?_, ?_⟩
        · rw [Nat.add_right_comm, Nat.add_assoc]
        · rwa [Nat.add_right_comm, Nat.add_assoc]

mutual

/-- A walk comes to what is inside the criteria and below nothing to stop at. -/
theorem mem_walk_iff (d : Criteria) : ∀ (c : Criteria) (stop : Place → Criteria → Bool)
    (place : Place),
    (place, d) ∈ walk stop c ↔ within? c place = some d ∧ Clear stop (within? c) place
  | single v t test, stop, place => by
    unfold walk
    rw [List.mem_singleton, Prod.mk.injEq]
    cases place with
    -- at the empty place is the criteria itself, and nothing else is inside a test
    | nil => exact ⟨fun ⟨_, hd⟩ => ⟨by rw [hd]; rfl, clear_nil⟩,
        fun ⟨hd, _⟩ => ⟨rfl, (Option.some.inj hd).symm⟩⟩
    | cons i place => exact iff_of_false (fun h => by cases h.1) fun h => by cases h.1
  | group v t join members, stop, place => by
    unfold walk
    rw [List.mem_cons, Prod.mk.injEq]
    cases place with
    | nil =>
      refine ⟨fun h => ⟨?_, clear_nil⟩, fun ⟨hd, _⟩ => .inl ⟨rfl, (Option.some.inj hd).symm⟩⟩
      rcases h with ⟨-, hd⟩ | h
      · rw [hd]
        rfl
      · -- whatever is inside is at a place of its own
        split at h
        · cases h
        · obtain ⟨i, c, rest, -, heq, -⟩ := (mem_walkFrom stop members 0).mp h
          cases heq
    -- by the first position: a place inside a member, unless the walk stops at the group
    | cons i place =>
      have hmembers := mem_walk_of_mem_iff d members
      constructor
      · rintro (⟨heq, -⟩ | h)
        · cases heq
        split at h
        · cases h
        · next hs =>
          obtain ⟨j, c, rest, hj, heq, hmem⟩ := (mem_walkFrom stop members 0).mp h
          rw [Nat.zero_add] at heq hmem
          obtain ⟨rfl, rfl⟩ := List.cons.inj heq
          obtain ⟨hfind, hclear⟩ := (hmembers c (List.mem_of_getElem? hj) _ _).mp hmem
          refine ⟨?_, (clear_within_cons_iff hj).mpr ⟨Bool.eq_false_iff.mpr hs, hclear⟩⟩
          rw [within?, Criteria.members, hj]
          exact hfind
      · -- conversely, the way is clear, so the walk has not stopped at the group
        rintro ⟨hfind, hclear⟩
        rw [within?, Criteria.members] at hfind
        obtain ⟨c, hi, hfind⟩ := Option.bind_eq_some_iff.mp hfind
        obtain ⟨hs, hclear⟩ := (clear_within_cons_iff hi).mp hclear
        rw [hs]
        refine .inr ((mem_walkFrom stop members 0).mpr ⟨i, c, place, hi, ?_, ?_⟩)
        · rw [Nat.zero_add]
        · rw [Nat.zero_add]
          exact (hmembers c (List.mem_of_getElem? hi) _ _).mpr ⟨hfind, hclear⟩

/-- The same for the members of a list, which is what the recursion needs for a group. -/
theorem mem_walk_of_mem_iff (d : Criteria) : ∀ (cs : List Criteria), ∀ c ∈ cs,
    ∀ (stop : Place → Criteria → Bool) (place : Place),
      (place, d) ∈ walk stop c ↔ within? c place = some d ∧ Clear stop (within? c) place
  | [], _, hc => absurd hc List.not_mem_nil
  | first :: others, c, hc => by
    rcases List.mem_cons.mp hc with heq | hc
    · rw [heq]
      exact mem_walk_iff d first
    · exact mem_walk_of_mem_iff d others c hc

end

/-- **A walk through a list comes to the places to which the way is clear**, and finds there what
stands there. -/
theorem mem_walkFrom_iff (stop : Place → Criteria → Bool) (cs : List Criteria) :
    (place, d) ∈ walkFrom stop 0 cs ↔ lookup? cs place = some d ∧
      Clear stop (lookup? cs) place := by
  rw [mem_walkFrom]
  constructor
  · rintro ⟨i, c, rest, hi, rfl, hmem⟩
    rw [Nat.zero_add] at hmem ⊢
    obtain ⟨hfind, hclear⟩ := (mem_walk_iff d c _ rest).mp hmem
    refine ⟨?_, (clear_lookup_cons_iff hi).mpr hclear⟩
    rw [lookup?, hi]
    exact hfind
  · -- the root of a list is no criteria, so the place begins with a position
    rintro ⟨hfind, hclear⟩
    cases place with
    | nil => cases hfind
    | cons i rest =>
      obtain ⟨c, hi, hfind⟩ := Option.bind_eq_some_iff.mp hfind
      refine ⟨i, c, rest, hi, by rw [Nat.zero_add], ?_⟩
      rw [Nat.zero_add]
      exact (mem_walk_iff d c _ rest).mpr ⟨hfind, (clear_lookup_cons_iff hi).mp hclear⟩

/-! ### The order of a walk -/

mutual

/-- A walk through one criteria goes through places in lexicographic order. -/
theorem pairwise_walk : ∀ (c : Criteria) (stop : Place → Criteria → Bool),
    (walk stop c).Pairwise fun a b => a.1 < b.1
  | single v t test, stop => by
    unfold walk
    exact List.pairwise_singleton ..
  | group v t join members, stop => by
    have hmembers := pairwise_walkFrom members stop 0
    unfold walk
    refine List.pairwise_cons.mpr ⟨fun e he => ?_, ?_⟩
    · -- the group is at the empty place, which comes before all others
      split at he
      · cases he
      · obtain ⟨place, d⟩ := e
        obtain ⟨i, c, rest, -, rfl, -⟩ := (mem_walkFrom stop members 0).mp he
        exact List.nil_lt_cons ..
    · split
      · exact .nil
      · exact hmembers

/-- **A walk goes through places in lexicographic order.** -/
theorem pairwise_walkFrom : ∀ (cs : List Criteria) (stop : Place → Criteria → Bool)
    (position : Nat), (walkFrom stop position cs).Pairwise fun a b => a.1 < b.1
  | [], stop, position => by
    unfold walkFrom
    exact .nil
  | c :: cs, stop, position => by
    have hfirst := pairwise_walk c fun place => stop (position :: place)
    have hothers := pairwise_walkFrom cs stop (position + 1)
    unfold walkFrom
    refine List.pairwise_append.mpr ⟨List.pairwise_map.mpr (hfirst.imp fun h => ?_), hothers, ?_⟩
    · -- within the first member, the order is that of the rest of the place
      exact List.cons_lt_cons_iff.mpr (.inr ⟨rfl, h⟩)
    · -- between members it is that of their positions
      rintro a ha ⟨place, d⟩ hb
      obtain ⟨e, -, rfl⟩ := List.mem_map.mp ha
      obtain ⟨i, c', rest, -, rfl, -⟩ := (mem_walkFrom stop cs (position + 1)).mp hb
      have hlt : position < position + 1 + i := by omega
      exact List.cons_lt_cons_iff.mpr (.inl hlt)

end

/-! ### Keys of a visit -/

mutual

/-- The keys inside a criteria are those of a walk that stops nowhere. -/
theorem keyed_eq : ∀ (c : Criteria) (key : Key), keyed key c = (walk nowhere c).map fun e =>
    (key.along e.1, e.2)
  | single v t test, key => by
    unfold keyed walk
    rfl
  | group v t join members, key => by
    have hmembers := keyedFrom_eq members key 0
    unfold keyed walk
    rw [hmembers]
    rfl

/-- The same for members, from any position on. -/
theorem keyedFrom_eq : ∀ (cs : List Criteria) (parent : Key) (position : Nat),
    keyedFrom parent position cs = (walkFrom nowhere position cs).map fun e =>
      (parent.along e.1, e.2)
  | [], parent, position => by
    unfold keyedFrom walkFrom
    rfl
  | c :: cs, parent, position => by
    have hfirst := keyed_eq c (parent.member position)
    have hothers := keyedFrom_eq cs parent (position + 1)
    unfold keyedFrom walkFrom
    rw [hfirst, hothers, List.map_append, List.map_map]
    rfl

end

variable {parent key : Key}

/-- **A visit hands out the key of every place**, one after another. -/
theorem withKeys_eq (parent : Key) (cs : List Criteria) :
    withKeys parent cs = (walkFrom nowhere 0 cs).map fun e => (parent.along e.1, e.2) :=
  keyedFrom_eq cs parent 0

/-- A key is handed out for a criteria if it is the key of a place where that stands. -/
theorem mem_withKeys_iff : (key, c) ∈ withKeys parent cs ↔
    ∃ place, lookup? cs place = some c ∧ parent.along place = key := by
  -- a walk that stops nowhere comes to everything there is
  have hwalk : ∀ place, (place, c) ∈ walkFrom nowhere 0 cs ↔ lookup? cs place = some c :=
    fun place => (mem_walkFrom_iff nowhere cs).trans (and_iff_left fun _ _ _ _ _ => rfl)
  rw [withKeys_eq, List.mem_map]
  constructor
  · rintro ⟨⟨place, c'⟩, hmem, heq⟩
    obtain ⟨hkey, rfl⟩ := Prod.mk.inj heq
    exact ⟨place, (hwalk place).mp hmem, hkey⟩
  · rintro ⟨place, hfind, rfl⟩
    exact ⟨(place, c), (hwalk place).mpr hfind, rfl⟩

/-- The key of a place is handed out for the criteria at that place and for no other. -/
theorem along_mem_withKeys_iff : (parent.along place, c) ∈ withKeys parent cs ↔
    lookup? cs place = some c := by
  rw [mem_withKeys_iff]
  constructor
  · rintro ⟨place', hfind, hkey⟩
    rwa [Key.along_injective parent hkey] at hfind
  · exact fun hfind => ⟨place, hfind, rfl⟩

/-- **No key is handed out twice.** -/
theorem nodup_withKeys (parent : Key) (cs : List Criteria) :
    ((withKeys parent cs).map Prod.fst).Nodup := by
  rw [withKeys_eq, List.map_map]
  -- the places of a walk increase, and different places have different keys
  refine List.pairwise_map.mpr ((pairwise_walkFrom cs nowhere 0).imp fun {a b} hlt heq => ?_)
  rw [Key.along_injective parent heq] at hlt
  exact List.lt_irrefl _ hlt

end Criteria

end Playtest
