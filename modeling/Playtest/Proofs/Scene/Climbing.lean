import Mathlib.Data.List.Nodup
import Mathlib.Data.List.Perm.Subperm
import Mathlib.Logic.Relation
import Playtest.Scene.Resolver

/-!
# Climbing from parent to parent

An object says which object is its parent, and the game may say anything: parents that are not
there, objects that are their own parents, and rings of them. `Frame.Climbs` is what it means to
climb without any regard for that. A climb comes to a root, to a parent that is missing, or to an
object that it has come to before, and it is one of the three (`Frame.rooted_or_missing_or_cycle`).

The resolver climbs in a loop, `Frame.Pass` being one pass of it, and gives up when its line is
longer than there are ids. The crux is that a climb that can end comes to no id twice
(`Frame.Climbs.nodup_of_ends`), because from the same id it would go on in the same way for ever. So
it is over before the loop gives up (`Frame.ancestors_of_climbs`), and only climbs that never end
are cut off.
-/

namespace Playtest.Scene

namespace Frame

variable {f : Frame} {o p : Object} {id : Int64} {parent parent' : Option Int64}
  {above others : List Object}

/-! ### The ids of a frame -/

/-- The ids of a frame are the ids of its objects. -/
theorem mem_ids_iff : id ∈ f.ids ↔ ∃ o ∈ f.objects, o.id = id := by
  unfold ids
  induction f.objects with
  | nil => simp
  | cons first rest ih =>
    rw [List.foldr_cons, List.exists_mem_cons_iff, ← ih]
    -- an id that is in the list already is not put there again
    split
    · next hold =>
      refine ⟨.inr, fun h => h.elim (fun heq => ?_) fun h => h⟩
      exact heq ▸ List.contains_iff_mem.mp hold
    · next hnew => rw [List.mem_cons, eq_comm]

/-- However many objects have an id, it is listed once. -/
theorem nodup_ids (f : Frame) : f.ids.Nodup := by
  unfold ids
  induction f.objects with
  | nil => exact .nil
  | cons first rest ih =>
    rw [List.foldr_cons]
    split
    · exact ih
    · next hnew => exact List.nodup_cons.mpr ⟨fun hmem => hnew (List.contains_iff_mem.mpr hmem), ih⟩

theorem id_eq_of_object? (h : f.object? id = some o) : o.id = id := by
  have hid := List.find?_some h
  exact eq_of_beq hid

/-- The object that is found by an id is one of the frame. -/
theorem mem_of_object? (h : f.object? id = some o) : o ∈ f.objects :=
  List.mem_reverse.mp (List.mem_of_find?_eq_some h)

theorem mem_ids_of_object? (h : f.object? id = some o) : id ∈ f.ids :=
  mem_ids_iff.mpr ⟨o, mem_of_object? h, id_eq_of_object? h⟩

/-- Where no two objects have the same id, every object is the one with its id. -/
theorem object?_of_mem (hd : (f.objects.map Object.id).Nodup) (ho : o ∈ f.objects) :
    f.object? o.id = some o := by
  have hsome : (f.object? o.id).isSome = true := by
    unfold object?
    rw [List.find?_isSome]
    exact ⟨o, List.mem_reverse.mpr ho, beq_self_eq_true o.id⟩
  obtain ⟨p, hp⟩ := Option.isSome_iff_exists.mp hsome
  rw [hp, List.inj_on_of_nodup_map hd (mem_of_object? hp) ho (id_eq_of_object? hp)]

/-! ### Climbing -/

/-- **Climbing** from a parent: the objects that one comes to, nearest first, and the parent of the
last one. -/
inductive Climbs (f : Frame) : Option Int64 → List Object → Option Int64 → Prop
  | here (parent : Option Int64) : Climbs f parent [] parent
  | up {id : Int64} {o : Object} {above : List Object} {parent : Option Int64}
      (ho : f.object? id = some o)
      (h : Climbs f o.parentId above parent) : Climbs f (some id) (o :: above) parent

/-- From a parent there is **no way up**: there is no such parent, or it is missing. -/
def Ends (f : Frame) (parent : Option Int64) : Prop := ∀ id, parent = some id → f.object? id = none

/-- From a parent one comes to a root. -/
def Rooted (f : Frame) (parent : Option Int64) : Prop := ∃ above, Climbs f parent above none

/-- From a parent one comes to one that is missing. -/
def MissesAncestor (f : Frame) (parent : Option Int64) : Prop :=
  ∃ above id, Climbs f parent above (some id) ∧ f.object? id = none

/-- From a parent one comes **into a cycle**: from some id one climbs back to the same id. -/
def RunsIntoCycle (f : Frame) (parent : Option Int64) : Prop :=
  ∃ below around id, Climbs f parent below (some id) ∧ Climbs f (some id) around (some id) ∧
    around ≠ []

/-- There is no way up from where there is no parent. -/
theorem ends_none (f : Frame) : Ends f none := fun _ h => by cases h

/-- There is no way up from a parent that is missing. -/
theorem ends_missing (h : f.object? id = none) : Ends f (some id) := by
  rintro _ ⟨⟩
  exact h

/-- A climb that comes to an object has come to the id of that object before. -/
theorem Climbs.to_object {front back : List Object}
    (h : Climbs f parent (front ++ o :: back) parent') :
    Climbs f parent front (some o.id) := by
  -- along the first part of the climb
  induction front generalizing parent with
  | nil =>
    cases h with
    | up ho _ =>
      rw [id_eq_of_object? ho]
      exact .here _
  | cons first front ih =>
    cases h with
    | up ho h => exact .up ho (ih h)

/-- There is one way up only. Of a climb that ends, every other climb is a part. -/
theorem Climbs.rest_of_ends (h : Climbs f parent above parent') (he : Ends f parent')
    {middle : Option Int64} (h' : Climbs f parent others middle) :
    ∃ rest, above = others ++ rest ∧ Climbs f middle rest parent' := by
  induction h' generalizing above with
  | here => exact ⟨above, rfl, h⟩
  | up ho _ ih =>
    cases h with
    | here =>
      -- it cannot end here, since there is an object to go on to
      rw [he _ rfl] at ho
      cases ho
    | up ho' h =>
      -- both go on to the same object
      obtain rfl := Option.some.inj (ho.symm.trans ho')
      obtain ⟨rest, rfl, hrest⟩ := ih h
      exact ⟨rest, rfl, hrest⟩

/-- So two climbs from one parent that both end are the same climb. -/
theorem Climbs.eq_of_ends (h : Climbs f parent above parent') (he : Ends f parent')
    {middle : Option Int64} (h' : Climbs f parent others middle) (he' : Ends f middle) :
    above = others ∧ parent' = middle := by
  obtain ⟨rest, rfl, hrest⟩ := h.rest_of_ends he h'
  cases hrest with
  | here => exact ⟨List.append_nil _, rfl⟩
  | up ho _ =>
    rw [he' _ rfl] at ho
    cases ho

/-- **A climb that ends runs into no cycle**: once around, it would have to go around again. -/
theorem Climbs.not_runsIntoCycle (h : Climbs f parent above parent') (he : Ends f parent') :
    ¬ RunsIntoCycle f parent := by
  rintro ⟨below, around, id, hbelow, haround, hne⟩
  -- to the id of the cycle, once around from there, and around again: by `rest_of_ends` the rest of
  -- the climb is the whole of its own part
  obtain ⟨rest, -, hrest⟩ := h.rest_of_ends he hbelow
  obtain ⟨again, hagain, hends⟩ := hrest.rest_of_ends he haround
  obtain ⟨heq, -⟩ := hrest.eq_of_ends he hends he
  rw [← heq] at hagain
  exact hne (List.self_eq_append_left.mp hagain)

/-- A cycle above an object is one above whatever leads to that object. -/
theorem RunsIntoCycle.up (ho : f.object? id = some o) (h : RunsIntoCycle f o.parentId) :
    RunsIntoCycle f (some id) := by
  obtain ⟨below, around, id', hbelow, haround, hne⟩ := h
  exact ⟨o :: below, around, id', .up ho hbelow, haround, hne⟩

/-- Whoever comes to an id twice is in a cycle. -/
theorem Climbs.nodup_or_cycle (h : Climbs f parent above parent') :
    (above.map Object.id).Nodup ∨ RunsIntoCycle f parent := by
  induction h with
  | here => exact .inl .nil
  | @up id o above parent' ho h ih =>
    rcases ih with hnodup | hcycle
    · by_cases hmem : o.id ∈ above.map Object.id
      · -- back at the id of `o`, which is where the climb began
        obtain ⟨p, hp, hid⟩ := List.mem_map.mp hmem
        obtain ⟨front, back, rfl⟩ := List.append_of_mem hp
        have hback : Climbs f o.parentId front (some id) := by
          rw [← id_eq_of_object? ho, ← hid]
          exact h.to_object
        exact .inr ⟨[], o :: front, id, .here _, .up ho hback, List.cons_ne_nil _ _⟩
      · exact .inl (List.nodup_cons.mpr ⟨hmem, hnodup⟩)
    · exact .inr (hcycle.up ho)

theorem Climbs.nodup_of_ends (h : Climbs f parent above parent') (he : Ends f parent') :
    (above.map Object.id).Nodup :=
  h.nodup_or_cycle.resolve_right (h.not_runsIntoCycle he)

/-- A climb keeps to the ids of the frame. -/
theorem Climbs.ids_subset (h : Climbs f parent above parent') : above.map Object.id ⊆ f.ids := by
  induction h with
  | here => exact List.nil_subset _
  | up ho _ ih =>
    refine List.cons_subset.mpr ⟨?_, ih⟩
    rw [id_eq_of_object? ho]
    exact mem_ids_of_object? ho

/-- **A climb without repetition is not longer than there are ids.** -/
theorem Climbs.length_le (h : Climbs f parent above parent') (hn : (above.map Object.id).Nodup) :
    above.length ≤ f.ids.length := by
  -- no id twice, and only ids of the frame
  have hle := (List.subperm_of_subset hn h.ids_subset).length_le
  rwa [List.length_map] at hle

/-! ### The loop -/

/-- One **pass** of the loop that climbs. It has a line of objects, nearest first, and the parent of
the last one, and goes on as long as the line is not longer than there are ids. -/
inductive Pass (f : Frame) : List Object × Option Int64 → List Object × Option Int64 → Prop
  | up {line : List Object} {id : Int64} {o : Object} (hl : line.length ≤ f.ids.length)
      (ho : f.object? id = some o) : Pass f (line, some id) (line ++ [o], o.parentId)

/-- How the loop **halts**, the length of the line being looked at first. -/
inductive Halts (f : Frame) (line : List Object) : Option Int64 → Ending → Prop
  | root : Halts f line none .root
  | cycle (id : Int64) (hl : f.ids.length < line.length) : Halts f line (some id) .cycle
  | missingParent (id : Int64) (hl : line.length ≤ f.ids.length) (h : f.object? id = none) :
      Halts f line (some id) .missingParent

/-- The loop halts with a root just if there is no parent left. -/
theorem Halts.root_iff {line : List Object} {ending : Ending} (h : Halts f line parent ending) :
    ending = .root ↔ parent = none := by
  cases h <;> simp

/-- **Every climb of the loop ends**, whatever the frame is: each pass makes the line longer. -/
theorem wellFounded_pass (f : Frame) : WellFounded fun after before => Pass f before after := by
  refine Subrelation.wf ?_ (measure fun s : List Object × Option Int64 =>
    f.ids.length + 1 - s.1.length).wf
  rintro _ _ (@⟨line, id, o, hl, ho⟩)
  show f.ids.length + 1 - (line ++ [o]).length < f.ids.length + 1 - line.length
  rw [List.length_append, List.length_singleton]
  omega

/-- The loop climbs, one object with each pass. -/
theorem climbs_of_passes {line line' : List Object}
    (h : Relation.ReflTransGen (Pass f) (line, parent) (line', parent')) :
    ∃ above, line' = line ++ above ∧ Climbs f parent above parent' := by
  -- `head_induction_on` wants variables for the two states
  generalize hs : (line, parent) = s at h
  generalize hs' : (line', parent') = s' at h
  induction h using Relation.ReflTransGen.head_induction_on generalizing line parent with
  | refl =>
    obtain ⟨rfl, rfl⟩ := Prod.mk.inj (hs.trans hs'.symm)
    exact ⟨[], (List.append_nil _).symm, .here _⟩
  | head hpass _ ih =>
    cases hpass with
    | @up line₁ id o hl ho =>
      obtain ⟨rfl, rfl⟩ := Prod.mk.inj hs
      obtain ⟨above, rfl, habove⟩ := ih rfl
      exact ⟨o :: above, List.append_assoc .., .up ho habove⟩

/-- What is above an object is what the loop comes to, if the limit is how often it may still go
on. -/
theorem passes_ancestors (f : Frame) (limit : Nat) :
    ∀ (line : List Object) (parent : Option Int64), line.length + limit = f.ids.length + 1 →
      ∃ parent', Relation.ReflTransGen (Pass f)
          (line, parent) (line ++ (ancestors f limit parent).1, parent') ∧
        Halts f (line ++ (ancestors f limit parent).1) parent' (ancestors f limit parent).2 := by
  -- on the number of passes left, which with the length of the line is one more than there are ids
  induction limit with
  | zero =>
    intro line parent hlength
    unfold ancestors
    split
    · exact ⟨none, by rw [List.append_nil], .root⟩
    · next id _ =>
      refine ⟨some id, by rw [List.append_nil], .cycle id ?_⟩
      rw [List.append_nil]
      omega
    · next heq => cases heq
  | succ limit ih =>
    intro line parent hlength
    have hl : line.length ≤ f.ids.length := by omega
    cases parent with
    | none =>
      unfold ancestors
      exact ⟨none, by rw [List.append_nil], .root⟩
    | some id =>
      unfold ancestors
      cases ho : f.object? id with
      | none =>
        refine ⟨some id, by rw [List.append_nil], .missingParent id ?_ ho⟩
        rw [List.append_nil]
        exact hl
      | some o =>
        obtain ⟨parent', hpasses, hhalts⟩ := ih (line ++ [o]) o.parentId (by
          rw [List.length_append, List.length_singleton]
          omega)
        rw [List.append_assoc, List.singleton_append] at hpasses hhalts
        exact ⟨parent', .head (.up hl ho) hpasses, hhalts⟩

/-- The climb is not longer than its limit. -/
theorem length_ancestors_le (f : Frame) (limit : Nat) :
    ∀ parent, (ancestors f limit parent).1.length ≤ limit := by
  induction limit with
  | zero => rintro (_ | id) <;> exact Nat.le_refl 0
  | succ limit ih =>
    rintro (_ | id)
    · exact Nat.zero_le _
    · unfold ancestors
      cases f.object? id with
      | none => exact Nat.zero_le _
      | some o => exact Nat.succ_le_succ (ih o.parentId)

/-- **The limit does not cut off a climb that ends.** -/
theorem ancestors_of_climbs (h : Climbs f parent above parent') (he : Ends f parent') {limit : Nat}
    (hl : above.length ≤ limit) : (ancestors f limit parent).1 = above ∧
      ((ancestors f limit parent).2 = .root ↔ parent' = none) := by
  -- along the climb, the limit going down by one with each object
  induction h generalizing limit with
  | here parent =>
    cases parent with
    | none =>
      unfold ancestors
      exact ⟨rfl, iff_of_true rfl rfl⟩
    | some id =>
      cases limit with
      | zero =>
        exact ⟨rfl, iff_of_false (fun h => by cases h) fun h => by cases h⟩
      | succ limit =>
        unfold ancestors
        rw [he id rfl]
        exact ⟨rfl, iff_of_false (fun h => by cases h) fun h => by cases h⟩
  | up ho _ ih =>
    cases limit with
    | zero => exact absurd hl (Nat.not_succ_le_zero _)
    | succ limit =>
      obtain ⟨habove, hroot⟩ := ih he (Nat.le_of_succ_le_succ hl)
      unfold ancestors
      rw [ho]
      exact ⟨congrArg (List.cons _) habove, hroot⟩

/-! ### Lineages -/

/-- **A lineage is what the loop has when it halts.** -/
theorem passes_lineage (f : Frame) (o : Object) :
    ∃ parent, Relation.ReflTransGen (Pass f) ([o], o.parentId) ((lineage f o).1, parent) ∧
      Halts f (lineage f o).1 parent (lineage f o).2 :=
  passes_ancestors f f.ids.length [o] o.parentId (Nat.add_comm ..)

theorem length_lineage_le (f : Frame) (o : Object) : (lineage f o).1.length ≤ f.ids.length + 1 :=
  Nat.succ_le_succ (length_ancestors_le f f.ids.length o.parentId)

/-- Where a climb ends, the lineage is the whole of it. -/
theorem lineage_of_climbs (h : Climbs f o.parentId above parent) (he : Ends f parent) :
    (lineage f o).1 = o :: above ∧ ((lineage f o).2 = .root ↔ parent = none) := by
  obtain ⟨habove, hroot⟩ := ancestors_of_climbs h he (h.length_le (h.nodup_of_ends he))
  exact ⟨congrArg (List.cons o) habove, hroot⟩

/-- **A lineage is complete just if the object has a root.** -/
theorem lineage_root_iff : (lineage f o).2 = .root ↔ Rooted f o.parentId := by
  constructor
  · intro hroot
    obtain ⟨parent, hpasses, hhalts⟩ := passes_lineage f o
    obtain ⟨above, -, habove⟩ := climbs_of_passes hpasses
    obtain rfl : parent = none := hhalts.root_iff.mp hroot
    exact ⟨above, habove⟩
  · rintro ⟨above, habove⟩
    exact (lineage_of_climbs habove (ends_none f)).2.mpr rfl

/-! ### The three ends of a climb -/

/-- From wherever one climbs, one comes to a root, or to a parent that is missing, or into a
cycle. -/
theorem rooted_or_missing_or_cycle (f : Frame) (parent : Option Int64) :
    Rooted f parent ∨ MissesAncestor f parent ∨ RunsIntoCycle f parent := by
  -- a loop that may go on once more than there are ids has to come to some id twice
  obtain ⟨parent', hpasses, hhalts⟩ := passes_ancestors f (f.ids.length + 1)
      [] parent (Nat.zero_add _)
  obtain ⟨above, hline, habove⟩ := climbs_of_passes hpasses
  rw [hline, List.nil_append] at hhalts
  generalize (ancestors f (f.ids.length + 1) parent).2 = ending at hhalts
  cases hhalts with
  | root => exact .inl ⟨above, habove⟩
  | missingParent id _ hm => exact .inr (.inl ⟨above, id, habove, hm⟩)
  | cycle id hl =>
    refine .inr (.inr (habove.nodup_or_cycle.resolve_left fun hn => ?_))
    have hle := habove.length_le hn
    omega

theorem MissesAncestor.not_rooted (h : MissesAncestor f parent) : ¬ Rooted f parent := by
  rintro ⟨others, hothers⟩
  obtain ⟨above, id, habove, hm⟩ := h
  obtain ⟨-, heq⟩ := habove.eq_of_ends (ends_missing hm) hothers (ends_none f)
  cases heq

theorem RunsIntoCycle.not_rooted (h : RunsIntoCycle f parent) : ¬ Rooted f parent :=
  fun ⟨_, habove⟩ => habove.not_runsIntoCycle (ends_none f) h

/-- Whoever runs into no cycle comes to an end. -/
theorem exists_end_of_not_cycle (h : ¬ RunsIntoCycle f parent) :
    ∃ above parent', Climbs f parent above parent' ∧ Ends f parent' := by
  rcases rooted_or_missing_or_cycle f parent with ⟨above, habove⟩ | ⟨above, id, habove, hm⟩ | hcycle
  · exact ⟨above, none, habove, ends_none f⟩
  · exact ⟨above, some id, habove, ends_missing hm⟩
  · exact absurd hcycle h

end Frame

end Playtest.Scene
