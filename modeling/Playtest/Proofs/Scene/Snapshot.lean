import Playtest.Scene.Resolver

/-!
# Entities in their order

A snapshot is ordered if its entities come in the order of their ids, no two of them with the same
one (`Snapshot.Ordered`). Whatever a frame lists, and in whichever order, its snapshot is ordered
(`Resolver.resolve_ordered`), since `insertEntity` keeps what it is given that way.

In an ordered snapshot a target means the entities that it matches, all of them and in order
(`Snapshot.select_eq_filter`). This takes the order for targets that give an id only, where `select`
stops at the first entity that it finds.
-/

namespace Playtest

open Playtest.Scene

/-- Whether a target **matches** an entity. -/
def Target.isMatch : Target → Entity → Bool
  | .id i, e => e.id == i
  | .path p, e => e.path == p
  | .normalizedPath p, e => e.normalizedPath == p

namespace Scene

/-- Entities whose **ids increase**. -/
def Increasing (es : List Entity) : Prop := es.Pairwise fun d e => d.id < e.id

/-- A snapshot is **ordered** if the ids of its entities increase. -/
def Snapshot.Ordered (s : Snapshot) : Prop := Increasing s.entities

variable {e d : Entity} {es : List Entity}

/-! ### Putting an entity in its place -/

/-- Putting an entity in its place adds no other entity. -/
theorem mem_insertEntity (h : d ∈ insertEntity e es) : d = e ∨ d ∈ es := by
  induction es with
  | nil => exact .inl (List.mem_singleton.mp h)
  | cons x rest ih =>
    unfold insertEntity at h
    split at h
    · exact List.mem_cons.mp h
    split at h
    · exact (List.mem_cons.mp h).imp_right (List.mem_cons_of_mem _)
    · rcases List.mem_cons.mp h with rfl | h
      · exact .inr List.mem_cons_self
      · exact (ih h).imp_right (List.mem_cons_of_mem _)

/-- Ids still increase when an entity is put in its place. -/
theorem Increasing.insertEntity (h : Increasing es) : Increasing (insertEntity e es) := by
  induction es with
  | nil => exact List.pairwise_singleton ..
  | cons x rest ih =>
    obtain ⟨hx, hrest⟩ := List.pairwise_cons.mp h
    unfold Scene.insertEntity
    split
    · next hlt =>
      refine List.pairwise_cons.mpr ⟨fun y hy => ?_, h⟩
      rcases List.mem_cons.mp hy with rfl | hy
      · exact hlt
      · exact Int64.lt_trans hlt (hx y hy)
    next hlt =>
    split
    · -- the new entity takes the place of one with its id
      next heq => exact List.pairwise_cons.mpr ⟨fun y hy => heq ▸ hx y hy, hrest⟩
    · next hne =>
      refine List.pairwise_cons.mpr ⟨fun y hy => ?_, ih hrest⟩
      rcases mem_insertEntity hy with rfl | hy
      · exact Int64.lt_of_le_of_ne (Int64.not_lt.mp hlt) (Ne.symm hne)
      · exact hx y hy

/-! ### Resolving frames -/

/-- Resolving objects keeps the entities so far in their order. -/
theorem Resolver.resolveObjects_increasing (f : Frame) (os : List Object) :
    ∀ (r : Resolver) {acc : List Entity}, Increasing acc →
      Increasing (resolveObjects f r acc os).1 := by
  induction os with
  | nil => exact fun _ _ h => h
  | cons o rest ih => exact fun r _ h => ih _ h.insertEntity

/-- **Every frame resolves to an ordered snapshot.** -/
theorem Resolver.resolve_ordered (r : Resolver) (f : Frame) : (r.resolve f).1.Ordered :=
  resolveObjects_increasing f f.objects r .nil

/-! ### Targets -/

/-- Where ids increase, the first entity with an id is the only one. -/
theorem Increasing.find?_id (h : Increasing es) (id : Int64) :
    (es.find? fun e => e.id == id).toList = es.filter fun e => e.id == id := by
  induction es with
  | nil => rfl
  | cons x rest ih =>
    obtain ⟨hx, hrest⟩ := List.pairwise_cons.mp h
    rw [List.find?_cons, List.filter_cons]
    by_cases hid : x.id == id
    · -- behind it the ids are greater
      have hnone : rest.filter (fun e => e.id == id) = [] := by
        refine List.filter_eq_nil_iff.mpr fun y hy hyid => ?_
        have hlt := hx y hy
        rw [eq_of_beq hid, eq_of_beq hyid] at hlt
        exact Int64.lt_irrefl hlt
      rw [hid, if_pos rfl, hnone]
      rfl
    · rw [if_neg hid, eq_false_of_ne_true hid]
      exact ih hrest

/-- **A target means the entities that it matches.** -/
theorem Snapshot.select_eq_filter {s : Snapshot} (h : s.Ordered) (target : Target) :
    s.select target = s.entities.filter target.isMatch := by
  cases target with
  | id id => exact h.find?_id id
  | path path => rfl
  | normalizedPath path => rfl

/-- What a target means comes in the order of ids, too. -/
theorem Snapshot.increasing_select {s : Snapshot} (h : s.Ordered) (target : Target) :
    Increasing (s.select target) := by
  rw [select_eq_filter h]
  exact h.sublist List.filter_sublist

end Scene

end Playtest
