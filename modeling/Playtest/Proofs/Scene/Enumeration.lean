import Mathlib.Data.List.Forall2
import Playtest.Proofs.Scene.Remembered

/-!
# Objects in another order

A game may list the objects of a frame in any order, and the components of an object as well.
`Frame.Reordered` says that two frames differ in nothing else. The main result,
`Resolver.order_makes_no_difference`, is that histories of such frames give the same snapshots.

Names do not depend on the order because the names of components are sorted
(`compositeIdentity_eq_of_perm`), and neither do lineages, because a parent is found by its id
(`Frame.Reordered.lineage`). The resolvers need not be the same on the way, since paths are
remembered in the order of objects. They have the same path for every id (`path?_resolve`), and of a
snapshot nothing is left open by what it has for each id (`Snapshot.Ordered.entities_eq`).
-/

namespace Playtest.Scene

variable {f g : Frame} {o p : Object} {os ps : List Object} {r r' : Resolver} {id : Int64}

/-! ### Frames up to the order of their objects -/

/-- Two objects are the same **up to the order** of their components. -/
structure Object.Reordered (o p : Object) : Prop where
  id : p.id = o.id
  parentId : p.parentId = o.parentId
  name : p.name = o.name
  components : p.components.Perm o.components
  position : p.position = o.position
  attributes : p.attributes = o.attributes

/-- Two frames are the same **up to the order** of their objects, and of the components of each. -/
structure Frame.Reordered (f g : Frame) : Prop where
  number : g.number = f.number
  time : g.time = f.time
  objects : ∃ os, f.objects.Perm os ∧ List.Forall₂ Object.Reordered os g.objects
  screenshot : g.screenshot = f.screenshot

/-- What does not depend on the order of components is the same for all objects. -/
theorem Object.Reordered.map_eq {α : Type} {what : Object → α}
    (hwhat : ∀ o p, Reordered o p → what p = what o)
    (h : List.Forall₂ Reordered os ps) : ps.map what = os.map what := by
  induction h with
  | nil => rfl
  | cons hop _ ih => rw [List.map_cons, List.map_cons, hwhat _ _ hop, ih]

/-- Every object of the one list is among the other, up to the order of its components. -/
theorem Object.Reordered.exists_of_mem (h : List.Forall₂ Reordered os ps) (ho : o ∈ os) :
    ∃ p ∈ ps, o.Reordered p := by
  induction h with
  | nil => cases ho
  | cons hop _ ih =>
    rcases List.mem_cons.mp ho with rfl | ho
    · exact ⟨_, List.mem_cons_self, hop⟩
    · obtain ⟨p, hp, hop⟩ := ih ho
      exact ⟨p, List.mem_cons_of_mem _ hp, hop⟩

/-! ### Names -/

/-- **The name of an object after its components does not depend on their order.** -/
theorem compositeIdentity_eq_of_perm {xs ys : List String} (h : ys.Perm xs) :
    compositeIdentity ys = compositeIdentity xs := by
  -- lists that are in order and have the same members are the same
  have hordered : ∀ names : List String,
      (names.mergeSort fun a b => !(b < a)).Pairwise (· ≤ ·) := by
    intro names
    refine (List.pairwise_mergeSort (fun a b c hab hbc => ?_) (fun a b => ?_) names).imp
      fun hab => ?_
    · rw [Bool.not_eq_true', decide_eq_false_iff_not, String.not_lt] at hab hbc ⊢
      exact String.le_trans hab hbc
    · rw [Bool.or_eq_true, Bool.not_eq_true', Bool.not_eq_true', decide_eq_false_iff_not,
        decide_eq_false_iff_not, String.not_lt, String.not_lt]
      exact String.le_total a b
    · rw [Bool.not_eq_true', decide_eq_false_iff_not, String.not_lt] at hab
      exact hab
  have hperm := (List.mergeSort_perm (ys.map shortName) fun a b => !(b < a)).trans
    ((h.map shortName).trans (List.mergeSort_perm (xs.map shortName) fun a b => !(b < a)).symm)
  have hsame := hperm.eq_of_pairwise (fun _ _ _ _ => String.le_antisymm) (hordered _) (hordered _)
  unfold compositeIdentity
  rw [hsame]

/-- What an object is called does not depend on the order of its components. -/
theorem Object.Reordered.displayName (h : o.Reordered p) : p.displayName = o.displayName := by
  -- only an object without a name is called after its components
  have hunnamed : displayName.unnamed p = displayName.unnamed o := by
    unfold displayName.unnamed
    rw [h.components.isEmpty_eq, h.id, compositeIdentity_eq_of_perm h.components]
  unfold Object.displayName
  rw [h.name, hunnamed]

/-- A path is made of the names of a lineage, so it is the same as well. -/
theorem Path.ofLineage_reordered (h : List.Forall₂ Object.Reordered os ps) :
    ofLineage ps = ofLineage os := by
  unfold ofLineage
  rw [List.map_reverse, List.map_reverse,
    Object.Reordered.map_eq (fun _ _ => Object.Reordered.displayName) h]

/-! ### Lineages -/

namespace Frame

/-- The two frames have the same ids. -/
theorem Reordered.perm_ids (h : f.Reordered g) :
    (g.objects.map Object.id).Perm (f.objects.map Object.id) := by
  obtain ⟨os, hperm, hall⟩ := h.objects
  rw [Object.Reordered.map_eq (fun _ _ => Object.Reordered.id) hall]
  exact (hperm.map Object.id).symm

/-- Every object of the one frame is in the other, up to the order of its components. -/
theorem Reordered.exists_of_mem (h : f.Reordered g) (ho : o ∈ f.objects) :
    ∃ p ∈ g.objects, o.Reordered p := by
  obtain ⟨os, hperm, hall⟩ := h.objects
  exact Object.Reordered.exists_of_mem hall (hperm.mem_iff.mp ho)

/-- An object is found by its id wherever it stands. -/
theorem Reordered.object?_cases (h : f.Reordered g) (hd : (f.objects.map Object.id).Nodup)
    (id : Int64) :
    f.object? id = none ∧ g.object? id = none ∨
      ∃ o p, f.object? id = some o ∧ g.object? id = some p ∧ o.Reordered p := by
  cases ho : f.object? id with
  -- that an id is missing depends on the ids alone
  | none =>
    rw [object?_eq_none_iff, ← h.perm_ids.mem_iff, ← object?_eq_none_iff] at ho
    exact .inl ⟨rfl, ho⟩
  | some o =>
    obtain ⟨p, hp, hop⟩ := h.exists_of_mem (mem_of_object? ho)
    refine .inr ⟨o, p, rfl, ?_, hop⟩
    rw [← id_eq_of_object? ho, ← hop.id]
    exact object?_of_mem (h.perm_ids.nodup_iff.mpr hd) hp

/-- The loop that climbs has the same limit in both frames. -/
theorem Reordered.length_ids (h : f.Reordered g) : g.ids.length = f.ids.length := by
  refine ((List.perm_ext_iff_of_nodup (nodup_ids g) (nodup_ids f)).mpr fun id => ?_).length_eq
  rw [mem_ids_iff, mem_ids_iff, ← List.mem_map, ← List.mem_map]
  exact h.perm_ids.mem_iff

/-- Climbing comes to the same objects. -/
theorem Reordered.ancestors (h : f.Reordered g) (hd : (f.objects.map Object.id).Nodup)
    (limit : Nat) :
    ∀ parent, List.Forall₂ Object.Reordered (ancestors f limit parent).1
      (ancestors g limit parent).1 ∧
      (Scene.ancestors g limit parent).2 = (Scene.ancestors f limit parent).2 := by
  -- on the limit; the same id is looked up in both frames with each pass
  induction limit with
  | zero => rintro (_ | id) <;> exact ⟨.nil, rfl⟩
  | succ limit ih =>
    rintro (_ | id)
    · exact ⟨.nil, rfl⟩
    unfold Scene.ancestors
    rcases h.object?_cases hd id with ⟨hf, hg⟩ | ⟨o, p, hf, hg, hop⟩
    · rw [hf, hg]
      exact ⟨.nil, rfl⟩
    · obtain ⟨habove, hending⟩ := ih o.parentId
      rw [hf, hg]
      dsimp only
      rw [hop.parentId]
      exact ⟨.cons hop habove, hending⟩

/-- The lineages of an object are the same, up to the order of components. -/
theorem Reordered.lineage (h : f.Reordered g) (hd : (f.objects.map Object.id).Nodup)
    (hop : o.Reordered p) :
    List.Forall₂ Object.Reordered (lineage f o).1 (lineage g p).1 ∧
      (Scene.lineage g p).2 = (Scene.lineage f o).2 := by
  obtain ⟨habove, hending⟩ := h.ancestors hd f.ids.length o.parentId
  unfold Scene.lineage
  rw [h.length_ids, hop.parentId]
  exact ⟨.cons hop habove, hending⟩

/-- The two frames complete the same path for every id. -/
theorem Reordered.completePath? (h : f.Reordered g) (hd : (f.objects.map Object.id).Nodup)
    (id : Int64) :
    g.completePath? id = f.completePath? id := by
  unfold Frame.completePath?
  rcases h.object?_cases hd id with ⟨hf, hg⟩ | ⟨o, p, hf, hg, hop⟩
  · rw [hf, hg, Option.bind_none, Option.bind_none]
  · obtain ⟨hline, hending⟩ := h.lineage hd hop
    rw [hf, hg, Option.bind_some, Option.bind_some, hending, Path.ofLineage_reordered hline]

end Frame

/-! ### Snapshots -/

/-- **An ordered snapshot is what it has for each id.** -/
theorem Snapshot.Ordered.entities_eq {s s' : Snapshot} (h : s.Ordered) (h' : s'.Ordered)
    (hsame : ∀ id, s'.get? id = s.get? id) : s'.entities = s.entities := by
  -- an entity is in an ordered snapshot just if the snapshot has it for its id
  have hmem : ∀ {s : Snapshot}, s.Ordered → ∀ e, e ∈ s.entities ↔ s.get? e.id = some e :=
    fun h _ => ⟨h.get?_eq, List.mem_of_find?_eq_some⟩
  have hnodup : ∀ {s : Snapshot}, s.Ordered → s.entities.Nodup :=
    fun h => .of_map _ (Increasing.nodup_ids h)
  have hperm := (List.perm_ext_iff_of_nodup (hnodup h') (hnodup h)).mpr fun e => by
    rw [hmem h', hmem h, hsame]
  exact hperm.eq_of_pairwise (fun _ _ _ _ hlt hgt => absurd hgt (Int64.lt_asymm hlt)) h' h

namespace Resolver

/-- Resolvers with the same paths make the same snapshot of a frame in any order. -/
theorem resolve_reordered (h : f.Reordered g) (hd : (f.objects.map Object.id).Nodup)
    (hpaths : ∀ id, r'.path? id = r.path? id) : (r'.resolve g).1 = (r.resolve f).1 := by
  have hdg : (g.objects.map Object.id).Nodup := h.perm_ids.nodup_iff.mpr hd
  have hentities : (r'.resolve g).1.entities = (r.resolve f).1.entities := by
    refine (resolve_ordered r f).entities_eq (resolve_ordered r' g) fun id => ?_
    rw [get?_resolve hdg, get?_resolve hd]
    rcases h.object?_cases hd id with ⟨hf, hg⟩ | ⟨o, p, hf, hg, hop⟩
    · rw [hf, hg, Option.map_none, Option.map_none]
    · rw [hf, hg, Option.map_some, Option.map_some, hop.id, hpaths,
        Path.ofLineage_reordered (h.lineage hd hop).1]
      unfold entity
      rw [hop.id, hop.parentId, hop.position, hop.attributes]
  -- everything but the entities is copied from the frame
  calc (r'.resolve g).1
      = ⟨g.number, g.time, (r'.resolve g).1.entities, g.screenshot⟩ := rfl
    _ = (r.resolve f).1 := by
      rw [h.number, h.time, hentities, h.screenshot]
      rfl

/-- Resolvers with the same paths make the same snapshots of histories in any order. -/
theorem snapshots_reordered {fs gs : List Frame} (h : List.Forall₂ Frame.Reordered fs gs)
    (hd : ∀ f ∈ fs, (f.objects.map Object.id).Nodup) (hpaths : ∀ id, r'.path? id = r.path? id) :
    r'.snapshots gs = r.snapshots fs := by
  -- along the history, the paths staying the same for each id
  induction h generalizing r r' with
  | nil => rfl
  | @cons f g rest rest' hfg _ ih =>
    rw [List.forall_mem_cons] at hd
    -- the paths may have come in another order, but they are the same for each id
    have hafter : ∀ id, (r'.resolve g).2.1.path? id = (r.resolve f).2.1.path? id := by
      intro id
      rw [path?_resolve (hfg.perm_ids.nodup_iff.mpr hd.1), path?_resolve hd.1, hpaths,
        hfg.completePath? hd.1]
    exact congrArg₂ List.cons (resolve_reordered hfg hd.1 hpaths) (ih hd.2 hafter)

/-- **The order in which objects are listed makes no difference.** Two histories of frames are the
same up to the order of the objects in each frame and of the components of each object, and in no
frame two objects have the same id. Then resolvers that were reset make the same snapshots of both,
one for every frame. -/
theorem order_makes_no_difference (r r' : Resolver) {fs gs : List Frame}
    (h : List.Forall₂ Frame.Reordered fs gs)
    (hd : ∀ f ∈ fs, (f.objects.map Object.id).Nodup) :
      r'.reset.snapshots gs = r.reset.snapshots fs :=
  snapshots_reordered h hd fun _ => rfl

/-- A hall with something in it that has no name, the hall first. -/
def litHall : Frame :=
  ⟨1, none, [⟨1, none, some "Hall", [], none, []⟩, ⟨2, some 1, none, ["game::Mesh", "Light"],
    none, []⟩], none⟩

/-- The same hall, the thing in it first. -/
def litHallReordered : Frame :=
  ⟨1, none, [⟨2, some 1, none, ["Light", "game::Mesh"], none, []⟩,
    ⟨1, none, some "Hall", [], none, []⟩], none⟩

/-- Whichever way the hall is listed at first and later on, the snapshots are the same. -/
theorem litHall_in_any_order :
    litHall ≠ litHallReordered ∧
      Resolver.fresh.reset.snapshots [litHallReordered, litHall] =
        Resolver.fresh.reset.snapshots [litHall, litHall] := by
  -- the objects are turned around, and one of them has its components in another order
  have hturned : litHall.Reordered litHallReordered := by
    refine ⟨rfl, rfl, ⟨litHall.objects.reverse, (List.reverse_perm _).symm, ?_⟩, rfl⟩
    exact .cons ⟨rfl, rfl, rfl, .swap _ _ _, rfl, rfl⟩
      (.cons ⟨rfl, rfl, rfl, .refl _, rfl, rfl⟩ .nil)
  have hsame : litHall.Reordered litHall := by
    refine ⟨rfl, rfl, ⟨litHall.objects, .refl _, ?_⟩, rfl⟩
    exact .cons ⟨rfl, rfl, rfl, .refl _, rfl, rfl⟩ (.cons ⟨rfl, rfl, rfl, .refl _, rfl, rfl⟩ .nil)
  refine ⟨fun heq => ?_, order_makes_no_difference .fresh .fresh
    (.cons hturned (.cons hsame .nil)) (by decide)⟩
  -- they are not listed the same way, as their ids show
  have hids : litHall.objects.map Object.id = litHallReordered.objects.map Object.id := by rw [heq]
  exact absurd hids (by decide)

end Resolver

end Playtest.Scene
