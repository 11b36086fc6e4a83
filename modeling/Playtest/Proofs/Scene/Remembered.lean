import Playtest.Proofs.Scene.Paths

/-!
# Paths that are remembered

Frames come one after another, and the resolver goes on with what it remembers of the frames before.
Objects may be renamed, hung up elsewhere, taken away and brought back meanwhile. The main result,
`Resolver.keeps_first_complete_path`, says what a snapshot shows nevertheless:

* its entities are the objects of its own frame, and all but their paths is what that frame reports,
* as long as no frame has completed an id, the path is the one that the frame makes by itself,
* the first frame that completes an id decides the path for ever after.

All of it comes from what a single frame adds to a resolver (`Resolver.path?_resolve`): a path for
each id that the frame completes, unless the id has one. Over a history the first path that was
completed is left (`Resolver.path?_after`).
-/

namespace Playtest.Scene

variable {f g : Frame} {o p : Object} {os : List Object} {r : Resolver} {id : Int64} {e : Entity}
  {acc : List Entity} {fs : List Frame}

namespace Frame

/-- A frame **completes** an id if it has an object with that id and from there one comes to a
root. -/
def Completes (f : Frame) (id : Int64) : Prop := ∃ o ∈ f.objects, o.id = id ∧ f.Rooted o.parentId

/-- The path that a frame completes for an id. -/
def completePath? (f : Frame) (id : Int64) : Option Path :=
  (f.object? id).bind fun o =>
    if (lineage f o).2 = .root then some (.ofLineage (lineage f o).1) else none

/-- No object is found just if no object has the id. -/
theorem object?_eq_none_iff : f.object? id = none ↔ id ∉ f.objects.map Object.id := by
  constructor
  · rintro h hmem
    obtain ⟨o, ho, rfl⟩ := List.mem_map.mp hmem
    exact List.find?_eq_none.mp h o (List.mem_reverse.mpr ho) (beq_self_eq_true o.id)
  · intro h
    cases ho : f.object? id with
    | none => rfl
    | some o => exact absurd (List.mem_map.mpr ⟨o, mem_of_object? ho, id_eq_of_object? ho⟩) h

/-- A path that is completed is the path of the lineage. -/
theorem getD_completePath? (ho : f.object? o.id = some o) (path? : Option Path) :
    (path?.or (f.completePath? o.id)).getD (.ofLineage (lineage f o).1) =
      path?.getD (.ofLineage (lineage f o).1) := by
  cases path? with
  | some path => rfl
  | none =>
    unfold completePath?
    rw [ho, Option.none_or, Option.bind_some]
    split <;> rfl

/-- What is not completed has no complete path. -/
theorem completePath?_eq_none_of_not_completes (h : ¬ f.Completes id) :
    f.completePath? id = none := by
  unfold completePath?
  cases ho : f.object? id with
  | none => rfl
  | some o =>
    rw [Option.bind_some, if_neg]
    exact fun hroot => h ⟨o, mem_of_object? ho, id_eq_of_object? ho, lineage_root_iff.mp hroot⟩

/-- What a frame completes is the path of a climb to the root. -/
theorem completePath?_of_climbs (hd : (f.objects.map Object.id).Nodup) (ho : o ∈ f.objects)
    {above : List Object} (h : f.Climbs o.parentId above none) :
    f.completePath? o.id = some (.ofLineage (o :: above)) := by
  obtain ⟨hline, hroot⟩ := lineage_of_climbs h (ends_none f)
  unfold completePath?
  rw [object?_of_mem hd ho, Option.bind_some, if_pos (hroot.mpr rfl), hline]

end Frame

namespace Resolver

/-! ### One frame -/

/-- The path of an object is the one that is remembered, or else that of its lineage. -/
theorem fst_pathOf_eq_getD (r : Resolver) (f : Frame) (o : Object) :
    (r.pathOf f o).1 = (r.path? o.id).getD (.ofLineage (lineage f o).1) := by
  cases hp : r.path? o.id with
  | none => exact fst_pathOf hp f
  | some path =>
    unfold pathOf
    rw [hp]
    rfl

/-- An object adds the path that the frame completes for it, if its id has none. -/
theorem path?_pathOf (r : Resolver) (ho : f.object? o.id = some o) :
    (r.pathOf f o).2.1.path? o.id = (r.path? o.id).or (f.completePath? o.id) := by
  have hcomplete : f.completePath? o.id =
      if (lineage f o).2 = .root then some (.ofLineage (lineage f o).1) else none := by
    unfold Frame.completePath?
    rw [ho, Option.bind_some]
  rw [hcomplete]
  unfold pathOf
  -- what is remembered comes first; otherwise the three ends of a lineage decide
  cases hp : r.path? o.id with
  | some path => exact hp
  | none =>
    rw [Option.none_or]
    dsimp only
    split
    · next hroot => rw [if_pos hroot, path?_remember, if_pos rfl]
    · next hmissing => rw [if_neg (hmissing ▸ nofun), hp]
    · next hcycle => rw [if_neg (hcycle ▸ nofun), hp]

/-- Objects only decide about their own ids. -/
theorem path?_resolveObjects_of_notMem (hid : id ∉ os.map Object.id) :
    (resolveObjects f r acc os).2.1.path? id = r.path? id := by
  induction os generalizing r acc with
  | nil => rfl
  | cons first rest ih =>
    rw [List.map_cons, List.mem_cons, not_or] at hid
    calc (resolveObjects f r acc (first :: rest)).2.1.path? id
        = (r.pathOf f first).2.1.path? id := ih hid.2
      _ = r.path? id := path?_pathOf_of_ne r f (Ne.symm hid.1)

/-- Each object adds the path that the frame completes for it, if its id has none. -/
theorem path?_resolveObjects_of_mem (hd : (os.map Object.id).Nodup)
    (hf : ∀ p ∈ os, f.object? p.id = some p)
    (ho : o ∈ os) : (resolveObjects f r acc os).2.1.path? o.id =
      (r.path? o.id).or (f.completePath? o.id) := by
  induction os generalizing r acc with
  | nil => cases ho
  | cons first rest ih =>
    obtain ⟨hfirst, hrest⟩ := List.nodup_cons.mp hd
    rw [List.forall_mem_cons] at hf
    rcases List.mem_cons.mp ho with rfl | ho
    · exact (path?_resolveObjects_of_notMem hfirst).trans (path?_pathOf r hf.1)
    · -- what the first object adds is about another id
      have hne : first.id ≠ o.id := fun heq => hfirst (heq ▸ List.mem_map_of_mem ho)
      calc (resolveObjects f r acc (first :: rest)).2.1.path? o.id
          = ((r.pathOf f first).2.1.path? o.id).or (f.completePath? o.id) := ih hrest hf.2 ho
        _ = (r.path? o.id).or (f.completePath? o.id) := by rw [path?_pathOf_of_ne r f hne]

/-- **What a frame adds to the paths that are remembered**: for each id the path that it completes,
if there is none. -/
theorem path?_resolve (hd : (f.objects.map Object.id).Nodup) (r : Resolver) (id : Int64) :
    (r.resolve f).2.1.path? id = (r.path? id).or (f.completePath? id) := by
  -- what is in no frame completes no path
  cases ho : f.object? id with
  | none =>
    have hnone : f.completePath? id = none := by
      unfold Frame.completePath?
      rw [ho, Option.bind_none]
    rw [hnone, Option.or_none]
    exact path?_resolveObjects_of_notMem (Frame.object?_eq_none_iff.mp ho)
  | some o =>
    obtain rfl := Frame.id_eq_of_object? ho
    exact path?_resolveObjects_of_mem hd (fun p hp => Frame.object?_of_mem hd hp)
      (Frame.mem_of_object? ho)

/-- Every entity that is new has the id of one of the objects. -/
theorem id_mem_of_mem_resolveObjects (h : e ∈ (resolveObjects f r acc os).1) :
    e ∈ acc ∨ e.id ∈ os.map Object.id := by
  induction os generalizing r acc with
  | nil => exact .inl h
  | cons first rest ih =>
    rcases ih h with h | h
    · rcases mem_insertEntity h with rfl | h
      · exact .inr List.mem_cons_self
      · exact .inl h
    · exact .inr (List.mem_cons_of_mem _ h)

/-- **What a snapshot has for an id**: the object of the frame with the path that is remembered, or
else with that of its lineage. -/
theorem get?_resolve (hd : (f.objects.map Object.id).Nodup) (r : Resolver) (id : Int64) :
    (r.resolve f).1.get? id =
      (f.object? id).map fun o => entity o ((r.path? o.id).getD (.ofLineage (lineage f o).1)) := by
  cases ho : f.object? id with
  | none =>
    -- whatever is in a snapshot has the id of an object
    refine List.find?_eq_none.mpr fun e he hid => ?_
    rcases id_mem_of_mem_resolveObjects he with he | hmem
    · cases he
    · rw [eq_of_beq hid] at hmem
      exact Frame.object?_eq_none_iff.mp ho hmem
  | some o =>
    obtain rfl := Frame.id_eq_of_object? ho
    rw [get?_resolve_of_mem hd (Frame.mem_of_object? ho), fst_pathOf_eq_getD]
    rfl

/-- **The entities of a snapshot are the objects of its frame**, one for each. -/
theorem perm_ids_resolve (hd : (f.objects.map Object.id).Nodup) (r : Resolver) :
    ((r.resolve f).1.entities.map Entity.id).Perm (f.objects.map Object.id) := by
  -- no id comes twice on either side, so that the same ids suffice
  refine (List.perm_ext_iff_of_nodup (resolve_ordered r f).nodup_ids hd).mpr fun id =>
    ⟨fun h => ?_, fun h => ?_⟩
  · obtain ⟨e, he, rfl⟩ := List.mem_map.mp h
    rcases id_mem_of_mem_resolveObjects he with he | hmem
    · cases he
    · exact hmem
  · obtain ⟨o, ho, rfl⟩ := List.mem_map.mp h
    exact List.mem_map.mpr ⟨_, mem_resolveObjects hd ho, rfl⟩

/-! ### Frames one after another -/

/-- The resolver after some frames. -/
def after (r : Resolver) : List Frame → Resolver
  | [] => r
  | f :: rest => (r.resolve f).2.1.after rest

/-- The snapshots of frames that come one after another. -/
def snapshots (r : Resolver) : List Frame → List Snapshot
  | [] => []
  | f :: rest => (r.resolve f).1 :: (r.resolve f).2.1.snapshots rest

/-- The snapshot of a frame is made by the resolver after the frames before. -/
theorem getElem?_snapshots (r : Resolver) (before later : List Frame) (f : Frame) :
    (r.snapshots (before ++ f :: later))[before.length]? = some ((r.after before).resolve f).1 := by
  induction before generalizing r with
  | nil => rfl
  | cons first rest ih => exact ih (r.resolve first).2.1

/-- **What is remembered after some frames**: what was remembered before them, or else the first
path that one of them completed. -/
theorem path?_after (hd : ∀ f ∈ fs, (f.objects.map Object.id).Nodup) (r : Resolver) (id : Int64) :
    (r.after fs).path? id = (r.path? id).or (fs.findSome? fun f => f.completePath? id) := by
  -- on the frames; `or` is associative, and that is all there is to it
  induction fs generalizing r with
  | nil => exact Option.or_none.symm
  | cons f rest ih =>
    rw [List.forall_mem_cons] at hd
    calc (r.after (f :: rest)).path? id
        = ((r.resolve f).2.1.path? id).or (rest.findSome? fun f => f.completePath? id) := ih hd.2 _
      _ = (r.path? id).or
          ((f.completePath? id).or (rest.findSome? fun f => f.completePath? id)) := by
        rw [path?_resolve hd.1, Option.or_assoc]
      _ = (r.path? id).or ((f :: rest).findSome? fun f => f.completePath? id) := by
        rw [List.findSome?_cons]
        cases f.completePath? id <;> rfl

/-- **What a snapshot shows of an object**: the first path that a frame so far completed for its id,
or else the path of its lineage. -/
theorem get?_resolve_after {before : List Frame}
    (hd : ∀ g ∈ before ++ [f], (g.objects.map Object.id).Nodup)
    (ho : o ∈ f.objects) (r : Resolver) :
    ((r.reset.after before).resolve f).1.get? o.id = some (entity o
      (((before ++ [f]).findSome? fun g => g.completePath? o.id).getD
        (.ofLineage (lineage f o).1))) := by
  have hf : (f.objects.map Object.id).Nodup :=
    hd f (List.mem_append_right _ (List.mem_singleton_self f))
  have hobject := Frame.object?_of_mem hf ho
  -- a resolver that was reset remembers only what these frames have completed
  have hremembered : (r.reset.after before).path? o.id =
      before.findSome? fun g => g.completePath? o.id := by
    rw [path?_after fun g hg => hd g (List.mem_append_left _ hg)]
    exact Option.none_or
  rw [get?_resolve hf, hobject, Option.map_some, hremembered, List.findSome?_append,
    List.findSome?_singleton, Frame.getD_completePath? hobject]

/-- Where no frame completes an id, none of them is the first. -/
theorem findSome?_completePath?_of_not_completes (h : ∀ g ∈ fs, ¬ g.Completes id) :
    (fs.findSome? fun g => g.completePath? id) = none :=
  List.findSome?_eq_none_iff.mpr fun g hg => Frame.completePath?_eq_none_of_not_completes (h g hg)

/-- **The first complete path of an id stays.** A resolver is reset and then given frames, in none
of which two objects have the same id. Then each of its snapshots has exactly the objects of its
frame as entities, with the parents, positions and attributes that the frame reports. As for the
path of an entity,

* if no frame before has completed the id, everything about the entity is as the frame alone has it,
* if one of the frames so far was the first to complete the id, the path is that of the climb to the
  root there. -/
theorem keeps_first_complete_path (r : Resolver) (before later : List Frame) (f : Frame)
    (hd : ∀ g ∈ before ++ f :: later, (g.objects.map Object.id).Nodup) :
    ∃ s, (r.reset.snapshots (before ++ f :: later))[before.length]? = some s ∧
      (s.entities.map Entity.id).Perm (f.objects.map Object.id) ∧
      ∀ o ∈ f.objects, ∃ e, s.get? o.id = some e ∧
        e.parentId = o.parentId ∧ e.position = o.position ∧ e.attributes = o.attributes ∧
        ((∀ g ∈ before, ¬ g.Completes o.id) → (r.reset.resolve f).1.get? o.id = some e) ∧
        ∀ earlier g since, before ++ [f] = earlier ++ g :: since →
          (∀ h ∈ earlier, ¬ h.Completes o.id) →
          ∀ p ∈ g.objects, p.id = o.id → ∀ above, g.Climbs p.parentId above none →
            e.path = (Path.ofLineage (p :: above)).path ∧
              e.normalizedPath = (Path.ofLineage (p :: above)).normalizedPath := by
  have hsofar : ∀ g ∈ before ++ [f], (g.objects.map Object.id).Nodup := fun g hg => hd g (by
    rw [List.append_cons]
    exact List.mem_append_left _ hg)
  have hf : (f.objects.map Object.id).Nodup :=
    hsofar f (List.mem_append_right _ (List.mem_singleton_self f))
  refine ⟨_, getElem?_snapshots r.reset before later f, perm_ids_resolve hf _, fun o ho => ?_⟩
  refine ⟨_, get?_resolve_after hsofar ho r, rfl, rfl, rfl, fun hnew => ?_, ?_⟩
  · -- whether the frame itself completes the id makes no difference to its path
    have halone := Frame.getD_completePath? (Frame.object?_of_mem hf ho) none
    rw [Option.none_or, Option.getD_none] at halone
    rw [get?_resolve_reset hf ho, List.findSome?_append,
      findSome?_completePath?_of_not_completes hnew, Option.none_or,
      List.findSome?_singleton, halone]
  · intro earlier g since hsplit hearlier p hp hid above habove
    have hg := hsofar g (hsplit ▸ List.mem_append_right _ List.mem_cons_self)
    -- the frames before complete nothing, so the first path found is that of `g`
    have hfirst : ((before ++ [f]).findSome? fun g => g.completePath? o.id) =
        some (.ofLineage (p :: above)) := by
      rw [hsplit, List.findSome?_append, findSome?_completePath?_of_not_completes hearlier,
        Option.none_or, List.findSome?_cons, ← hid, Frame.completePath?_of_climbs hg hp habove]
    rw [hfirst]
    exact ⟨rfl, rfl⟩

/-- A lamp that is seen before the hall it hangs in, then in the hall. Then it is away. -/
def lampBefore : List Frame :=
  [⟨1, none, [⟨2, some 1, some "Lamp", [], none, []⟩], none⟩,
    ⟨2, none, [⟨2, some 1, some "Lamp", [], none, []⟩, ⟨1, none, some "Hall (1)", [], none, []⟩],
      none⟩,
    ⟨3, none, [⟨3, none, some "Attic", [], none, []⟩], none⟩]

/-- It comes back under another name, and in the attic. -/
def lampMoved : Frame :=
  ⟨4, none, [⟨2, some 3, some "Lantern", [], none, []⟩, ⟨3, none, some "Attic", [], none, []⟩],
    none⟩

/-- It still has the path that it had in the hall. -/
theorem lamp_keeps_its_path :
    ∃ s, (Resolver.fresh.reset.snapshots (lampBefore ++ [lampMoved]))[3]? = some s ∧
      ∃ e, s.get? 2 = some e ∧ e.parentId = some 3 ∧ e.path = "Hall (1)/Lamp" ∧
        e.normalizedPath = "Hall/Lamp" := by
  obtain ⟨s, hs, -, h⟩ := keeps_first_complete_path .fresh lampBefore [] lampMoved (by decide)
  obtain ⟨e, he, hparent, -, -, -, hfirst⟩ :=
    h ⟨2, some 3, some "Lantern", [], none, []⟩ List.mem_cons_self
  -- in the first frame the hall is missing
  have halone : ∀ h ∈ lampBefore.take 1, ¬ h.Completes 2 := by
    rintro h hh ⟨o, ho, -, hroot⟩
    obtain rfl := List.mem_singleton.mp hh
    obtain rfl := List.mem_singleton.mp ho
    exact Frame.MissesAncestor.not_rooted ⟨[], 1, .here _, rfl⟩ hroot
  have hpath := hfirst (lampBefore.take 1) _ _ rfl halone
    ⟨2, some 1, some "Lamp", [], none, []⟩ List.mem_cons_self rfl
    [⟨1, none, some "Hall (1)", [], none, []⟩] (.up rfl (.here _))
  have hnames : Path.ofLineage [⟨2, some 1, some "Lamp", [], none, []⟩,
      ⟨1, none, some "Hall (1)", [], none, []⟩] =
      ⟨"Hall (1)/Lamp", "Hall/Lamp"⟩ := by decide +kernel
  rw [hnames] at hpath
  exact ⟨s, hs, e, he, hparent, hpath⟩

end Resolver

end Playtest.Scene
