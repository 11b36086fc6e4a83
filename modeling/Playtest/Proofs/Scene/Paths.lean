import Playtest.Proofs.Scene.Climbing
import Playtest.Proofs.Scene.Snapshot

/-!
# Paths of entities

A resolver makes a path of every object's lineage, and remembers it if the lineage is complete. The
main result, `Frame.every_climb_ends`, says what that comes to in every frame, cycles and missing
parents included:

* the climb ends after no more names than there are ids and one, and it is complete just if there is
  a root to come to,
* where no two objects have the same id, nothing is remembered for an object that has no root,
* after a reset, the path of an object goes on from the path of its parent, unless the climb runs
  into a cycle.

For the last one, climbing from an object comes to what climbing from its parent comes to, behind
the parent itself (`Frame.lineage_of_parent`). In a cycle it does not: either climb is cut off after
the same number of names.
-/

namespace Playtest.Scene

variable {f : Frame} {o parent : Object} {os : List Object} {r : Resolver} {id : Int64}
  {path : Path} {e d : Entity} {es acc : List Entity}

/-! ### Entities of a snapshot -/

/-- An entity that is put in its place is in the list. -/
theorem insertEntity_self (e : Entity) (es : List Entity) : e ∈ insertEntity e es := by
  induction es with
  | nil => exact List.mem_singleton_self e
  | cons x rest ih =>
    unfold insertEntity
    split
    · exact List.mem_cons_self
    split
    · exact List.mem_cons_self
    · exact List.mem_cons_of_mem _ ih

/-- An entity is only replaced by one with its own id. -/
theorem mem_insertEntity_of_ne (hd : d ∈ es) (hne : e.id ≠ d.id) : d ∈ insertEntity e es := by
  induction es with
  | nil => cases hd
  | cons x rest ih =>
    unfold insertEntity
    split
    · exact List.mem_cons_of_mem _ hd
    split
    · next heq =>
      -- the entity in front would have to be the one that is looked for
      rcases List.mem_cons.mp hd with rfl | hd
      · exact absurd heq hne
      · exact List.mem_cons_of_mem _ hd
    · rcases List.mem_cons.mp hd with rfl | hd
      · exact List.mem_cons_self
      · exact List.mem_cons_of_mem _ (ih hd)

/-- In entities whose ids increase, no id comes twice. -/
theorem Increasing.nodup_ids (h : Increasing es) : (es.map Entity.id).Nodup :=
  List.pairwise_map.mpr (h.imp Int64.ne_of_lt)

/-- In an ordered snapshot every entity is found by its id. -/
theorem Snapshot.Ordered.get?_eq {s : Snapshot} (h : s.Ordered) (he : e ∈ s.entities) :
    s.get? e.id = some e := by
  have hmem : e ∈ (s.get? e.id).toList := by
    unfold Snapshot.get?
    rw [Increasing.find?_id h]
    exact List.mem_filter.mpr ⟨he, beq_self_eq_true e.id⟩
  exact Option.mem_toList.mp hmem

namespace Resolver

/-! ### What is remembered -/

/-- Remembering the path of one id leaves the others alone. -/
theorem path?_remember (r : Resolver) (id other : Int64) (path : Path) :
    (r.remember id path).path? other = if id = other then some path else r.path? other := by
  unfold remember path?
  rw [List.find?_cons]
  by_cases h : id = other
  · rw [if_pos h, beq_iff_eq.mpr h]
    rfl
  · rw [if_neg h, beq_eq_false_iff_ne.mpr h]

/-- Going for a path leaves the resolver as it was, or remembers the path of an object that **has a
root**. -/
theorem pathOf_cases (r : Resolver) (f : Frame) (o : Object) :
    (r.pathOf f o).2.1 = r ∨
      (r.pathOf f o).2.1 = r.remember o.id (.ofLineage (lineage f o).1) ∧ f.Rooted o.parentId := by
  unfold pathOf
  split
  · exact .inl rfl
  dsimp only
  split
  · next hroot => exact .inr ⟨rfl, Frame.lineage_root_iff.mp hroot⟩
  · exact .inl rfl
  · exact .inl rfl

/-- Going for the path of one object leaves what is remembered of other ids. -/
theorem path?_pathOf_of_ne (r : Resolver) (f : Frame) (hne : o.id ≠ id) :
    (r.pathOf f o).2.1.path? id = r.path? id := by
  rcases pathOf_cases r f o with heq | ⟨heq, -⟩
  · rw [heq]
  · rw [heq, path?_remember, if_neg hne]

/-- A path that is not remembered is that of the lineage. -/
theorem fst_pathOf (h : r.path? o.id = none) (f : Frame) :
    (r.pathOf f o).1 = .ofLineage (lineage f o).1 := by
  unfold pathOf
  rw [h]
  dsimp only
  split <;> rfl

/-- The path of an object depends only on what is remembered of its own id. -/
theorem fst_pathOf_congr {r' : Resolver} (h : r'.path? o.id = r.path? o.id) (f : Frame) :
    (r'.pathOf f o).1 = (r.pathOf f o).1 := by
  cases hp : r.path? o.id with
  | none => rw [fst_pathOf hp, fst_pathOf (h.trans hp)]
  | some path =>
    unfold pathOf
    rw [h, hp]

/-! ### Objects one after another -/

/-- What is remembered afterwards was remembered before, or belongs to an object with a root. -/
theorem mem_paths_resolveObjects {entry : Int64 × Path}
    (h : entry ∈ (resolveObjects f r acc os).2.1.paths) :
    entry ∈ r.paths ∨ ∃ o ∈ os, entry.1 = o.id ∧ f.Rooted o.parentId := by
  induction os generalizing r acc with
  -- on the objects; what the first one adds is what going for its path adds
  | nil => exact .inl h
  | cons first rest ih =>
    rcases ih h with h | ⟨o, ho, hid, hroot⟩
    · change entry ∈ (r.pathOf f first).2.1.paths at h
      rcases pathOf_cases r f first with heq | ⟨heq, hroot⟩
      · rw [heq] at h
        exact .inl h
      · rw [heq] at h
        rcases List.mem_cons.mp h with rfl | h
        · exact .inr ⟨first, List.mem_cons_self, rfl, hroot⟩
        · exact .inl h
    · exact .inr ⟨o, List.mem_cons_of_mem _ ho, hid, hroot⟩

/-- Entities are only replaced by entities of the objects that come. -/
theorem mem_resolveObjects_of_acc (hd : d ∈ acc) (hn : ∀ o ∈ os, o.id ≠ d.id) :
    d ∈ (resolveObjects f r acc os).1 := by
  induction os generalizing r acc with
  | nil => exact hd
  | cons first rest ih =>
    rw [List.forall_mem_cons] at hn
    exact ih (mem_insertEntity_of_ne hd hn.1) hn.2

/-- **Every object becomes an entity**, with the path that the resolver has for it from the
beginning. What is remembered on the way is about other ids. -/
theorem mem_resolveObjects (hd : (os.map Object.id).Nodup) (ho : o ∈ os) :
    entity o (r.pathOf f o).1 ∈ (resolveObjects f r acc os).1 := by
  -- on the objects; the entity of the first one is not replaced by the later ones
  induction os generalizing r acc with
  | nil => cases ho
  | cons first rest ih =>
    obtain ⟨hfirst, hrest⟩ := List.nodup_cons.mp hd
    have hne : ∀ o ∈ rest, o.id ≠ first.id := fun o ho heq => hfirst (heq ▸ List.mem_map_of_mem ho)
    show _ ∈ (resolveObjects f (r.pathOf f first).2.1
      (insertEntity (entity first (r.pathOf f first).1) acc) rest).1
    rcases List.mem_cons.mp ho with rfl | ho
    · exact mem_resolveObjects_of_acc (insertEntity_self _ acc) hne
    · have hsame := fst_pathOf_congr (path?_pathOf_of_ne r f (hne o ho).symm) f
      rw [← hsame]
      exact ih hrest ho

/-- Where no two objects have the same id, an object is found by its id. -/
theorem get?_resolve_of_mem (hd : (f.objects.map Object.id).Nodup) (ho : o ∈ f.objects)
    (r : Resolver) :
    (r.resolve f).1.get? o.id = some (entity o (r.pathOf f o).1) :=
  (resolve_ordered r f).get?_eq (mem_resolveObjects hd ho)

/-- **After a reset, the path of every object is that of its lineage.** -/
theorem get?_resolve_reset (hd : (f.objects.map Object.id).Nodup) (ho : o ∈ f.objects)
    (r : Resolver) :
    (r.reset.resolve f).1.get? o.id = some (entity o (.ofLineage (lineage f o).1)) := by
  have hnone : r.reset.path? o.id = none := rfl
  rw [get?_resolve_of_mem hd ho, fst_pathOf hnone]

end Resolver

/-! ### Paths of lineages -/

/-- The path of a line goes on from the path of the line above. -/
theorem Path.ofLineage_cons (o parent : Object) (above : List Object) :
    (ofLineage (o :: parent :: above)).path = (ofLineage (parent :: above)).path ++ "/" ++
      o.displayName ∧
      (ofLineage (o :: parent :: above)).normalizedPath =
        (ofLineage (parent :: above)).normalizedPath ++ "/" ++ normalizeName o.displayName := by
  -- the names are in reverse, so the object comes last
  have hnames : ((o :: parent :: above).reverse).map Object.displayName =
      ((parent :: above).reverse).map Object.displayName ++ [o.displayName] := by
    rw [List.reverse_cons, List.map_append, List.map_singleton]
  have hne : ((parent :: above).reverse).map Object.displayName ≠ [] := by simp
  have hne' : (((parent :: above).reverse).map Object.displayName).map normalizeName ≠ [] := by simp
  constructor
  · calc (ofLineage (o :: parent :: above)).path
        = "/".intercalate (((parent :: above).reverse).map Object.displayName ++
          [o.displayName]) := by
          rw [← hnames]
          rfl
      _ = (ofLineage (parent :: above)).path ++ "/" ++ o.displayName := by
          rw [String.intercalate_append_of_ne_nil hne (List.cons_ne_nil _ _),
            String.intercalate_singleton]
          rfl
  · calc (ofLineage (o :: parent :: above)).normalizedPath
        = "/".intercalate ((((parent :: above).reverse).map Object.displayName).map normalizeName
            ++ [normalizeName o.displayName]) := by
          rw [← List.map_singleton, ← List.map_append, ← hnames]
          rfl
      _ = (ofLineage (parent :: above)).normalizedPath ++ "/" ++ normalizeName o.displayName := by
          rw [String.intercalate_append_of_ne_nil hne' (List.cons_ne_nil _ _),
            String.intercalate_singleton]
          rfl

namespace Frame

/-- **Behind an object comes the lineage of its parent**, unless there is a cycle above. -/
theorem lineage_of_parent (hp : f.object? id = some parent) (ho : o.parentId = some id)
    (hc : ¬ RunsIntoCycle f o.parentId) : (lineage f o).1 = o :: (lineage f parent).1 := by
  obtain ⟨above, top, habove, hends⟩ := exists_end_of_not_cycle hc
  have hline := (lineage_of_climbs habove hends).1
  -- the climb from the object is not over at once, because its parent is there
  rw [ho] at habove
  cases habove with
  | here =>
    rw [hends id rfl] at hp
    cases hp
  | up hp' habove =>
    obtain rfl := Option.some.inj (hp.symm.trans hp')
    rw [hline, (lineage_of_climbs habove hends).1]

/-- **Every climb ends, and only a root completes it.** In every frame, whatever its objects say of
their parents:

* no climb goes on for ever, where `Pass` is one pass of the loop that climbs,
* the lineage of an object is what that loop has when it halts. It is not longer than the number of
  different ids and one, and it ends at a root just if there is a root that one comes to from parent
  to parent.

If no two objects of the frame have the same id, then

* nothing is remembered for an object from which one comes into a cycle or to a missing parent,
* a resolver that was reset gives an object the path of its parent, a slash, and the name of the
  object, if the parent is in the frame and the climb does not run into a cycle; and likewise with
  normalized names. -/
theorem every_climb_ends (f : Frame) :
    (f.ids.Nodup ∧ ∀ id, id ∈ f.ids ↔ ∃ o ∈ f.objects, o.id = id) ∧
    WellFounded (fun after before => Pass f before after) ∧
    (∀ o, (∃ top, Relation.ReflTransGen (Pass f) ([o], o.parentId) ((lineage f o).1, top) ∧
        Halts f (lineage f o).1 top (lineage f o).2) ∧
      (lineage f o).1.length ≤ f.ids.length + 1 ∧
      ((lineage f o).2 = .root ↔ Rooted f o.parentId)) ∧
    ((f.objects.map Object.id).Nodup →
      (∀ (r : Resolver), ∀ o ∈ f.objects, RunsIntoCycle f o.parentId ∨ MissesAncestor f o.parentId →
        ∀ entry ∈ (r.resolve f).2.1.paths, entry.1 = o.id → entry ∈ r.paths) ∧
      ∀ (r : Resolver), ∀ o ∈ f.objects, ∀ parent ∈ f.objects, o.parentId = some parent.id →
        ¬ RunsIntoCycle f o.parentId →
          ∃ e above, (r.reset.resolve f).1.get? o.id = some e ∧
            (r.reset.resolve f).1.get? parent.id = some above ∧
            e.path = above.path ++ "/" ++ o.displayName ∧
              e.normalizedPath = above.normalizedPath ++ "/" ++ normalizeName o.displayName) := by
  refine ⟨⟨nodup_ids f, fun _ => mem_ids_iff⟩, wellFounded_pass f,
    fun o => ⟨passes_lineage f o, length_lineage_le f o, lineage_root_iff⟩, fun hd => ⟨?_, ?_⟩⟩
  · intro r o ho hrootless entry hentry hid
    have hnone : ¬ Rooted f o.parentId :=
      hrootless.elim RunsIntoCycle.not_rooted MissesAncestor.not_rooted
    rcases Resolver.mem_paths_resolveObjects hentry with hold | ⟨p, hp, hpid, hroot⟩
    · exact hold
    · -- no other object has the id
      have heq : o = p := List.inj_on_of_nodup_map hd ho hp (hid.symm.trans hpid)
      exact absurd (heq ▸ hroot) hnone
  · intro r o ho parent hparent hid hc
    have hline := lineage_of_parent (object?_of_mem hd hparent) hid hc
    obtain ⟨hpath, hnormalized⟩ :=
      Path.ofLineage_cons o parent (ancestors f f.ids.length parent.parentId).1
    refine ⟨_, _, Resolver.get?_resolve_reset hd ho r, Resolver.get?_resolve_reset hd hparent r, ?_⟩
    rw [hline]
    exact ⟨hpath, hnormalized⟩

/-- A stage with a lamp on it, another lamp whose stand is missing, two mirrors that hang on each
other, and a copy of a frame around one of them. -/
def hallOfMirrors : Frame where
  number := 1
  time := none
  objects :=
    [⟨3, some 2, some "Lamp (1)", [], none, []⟩, ⟨1, none, some "Hall", [], none, []⟩,
      ⟨2, some 1, some "Stage ", [], none, []⟩, ⟨6, some 4, some "Frame (Clone)", [], none, []⟩,
      ⟨4, some 5, some "Left", [], none, []⟩, ⟨5, some 4, some "Right", [], none, []⟩,
      ⟨8, some 9, some "Bulb", [], none, []⟩, ⟨7, some 8, none, ["game::Light"], none, []⟩]
  screenshot := none

/-- The frame hangs below a cycle and is not remembered. What hangs from the bulb goes on from it,
although nobody knows what the bulb hangs from. -/
theorem hallOfMirrors_resolves :
    (∀ entry ∈ (Resolver.fresh.resolve hallOfMirrors).2.1.paths, entry.1 ≠ 6) ∧
      ∃ e above, (Resolver.fresh.reset.resolve hallOfMirrors).1.get? 7 = some e ∧
        (Resolver.fresh.reset.resolve hallOfMirrors).1.get? 8 = some above ∧
          e.path = above.path ++ "/" ++ "Entity-Light" := by
  have hd : (hallOfMirrors.objects.map Object.id).Nodup := by decide
  obtain ⟨-, -, -, h⟩ := every_climb_ends hallOfMirrors
  obtain ⟨hforgotten, hgoesOn⟩ := h hd
  constructor
  · intro entry hentry hid
    -- from the left mirror to the right one and back
    have hback : Climbs hallOfMirrors (some 4) [⟨4, some 5, some "Left", [], none, []⟩,
        ⟨5, some 4, some "Right", [], none, []⟩] (some 4) := .up rfl (.up rfl (.here _))
    have hcycle : RunsIntoCycle hallOfMirrors (some 4) :=
      ⟨[], _, 4, .here _, hback, List.cons_ne_nil _ _⟩
    have hold := hforgotten .fresh ⟨6, some 4, some "Frame (Clone)", [], none, []⟩
      (by unfold hallOfMirrors; simp) (.inl hcycle) entry hentry hid
    cases hold
  · -- the climb from the bulb ends at an object that is not in the frame
    have hends : Climbs hallOfMirrors (some 8) [⟨8, some 9, some "Bulb", [], none, []⟩] (some 9) :=
      .up rfl (.here _)
    have hmissing : hallOfMirrors.object? 9 = none := by rfl
    obtain ⟨e, above, he, habove, hpath, -⟩ :=
      hgoesOn .fresh ⟨7, some 8, none, ["game::Light"], none, []⟩ (by unfold hallOfMirrors; simp)
        ⟨8, some 9, some "Bulb", [], none, []⟩ (by unfold hallOfMirrors; simp) rfl
        (hends.not_runsIntoCycle (ends_missing hmissing))
    have hname : Object.displayName ⟨7, some 8, none, ["game::Light"], none, []⟩ =
        "Entity-Light" := by
      decide +kernel
    exact ⟨e, above, he, habove, hname ▸ hpath⟩

end Frame

end Playtest.Scene
