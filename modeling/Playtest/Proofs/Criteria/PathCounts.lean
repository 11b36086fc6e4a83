import Playtest.Criteria.Evaluation
import Playtest.Proofs.Scene.Snapshot

/-!
# What has come and gone at a path

A path criteria may ask that some entities have come to its path, and that some have gone from
there, since the last key frame. `Criteria.enough_of_met` says what is true when such a criteria is
met: there are as many different ids as it asks for that are at the path now and were not there
then, and the other way round (`PathTest.Enough`). That the ids are different is due to the order of
snapshots.

A transient criteria that was met before is not looked at again, and promises nothing about what is
at its path now.
-/

namespace Playtest

open Playtest.Scene

variable {view : View} {t : PathTest} {isPartial : Bool}

/-! ### Ids at a path -/

/-- An entity with the id is **at a path**; none is without a snapshot. -/
def Scene.IsAt (s : Option Snapshot) (path : String) (isPartial : Bool) (id : Int64) : Prop :=
  ∃ k ∈ s, id ∈ k.idsAt path isPartial

/-- The ids at a path are those that are listed there. -/
theorem Scene.isAt_iff {s : Option Snapshot} {path : String} {id : Int64} :
    IsAt s path isPartial id ↔ id ∈ (s.map fun k => k.idsAt path isPartial).getD [] := by
  unfold IsAt
  cases s with
  | none => exact iff_of_false (fun ⟨_, hk, _⟩ => Option.not_mem_none _ hk) List.not_mem_nil
  | some k => exact ⟨fun ⟨_, hk, hid⟩ => Option.mem_some.mp hk ▸ hid, fun hid => ⟨k, rfl, hid⟩⟩

/-- In a snapshot that is in order, every id is listed once. -/
theorem Scene.Snapshot.Ordered.nodup_idsAt {s : Snapshot} (h : s.Ordered) (path : String)
    (isPartial : Bool) : (s.idsAt path isPartial).Nodup := by
  have hfiltered : Increasing (s.entitiesAt path isPartial) :=
    List.Pairwise.sublist List.filter_sublist h
  refine List.pairwise_map.mpr (hfiltered.imp fun hlt heq => ?_)
  rw [heq] at hlt
  exact Int64.lt_irrefl hlt

/-- **At least so many different ids** are of a kind. -/
def AtLeast (n : Nat) (kind : Int64 → Prop) : Prop :=
  ∃ ids : List Int64, ids.Nodup ∧ n ≤ ids.length ∧ ∀ id ∈ ids, kind id

/-- If there are some at all, there is one. -/
theorem AtLeast.exists {n : Nat} {kind : Int64 → Prop} (h : AtLeast n kind) (hn : 0 < n) :
    ∃ id, kind id := by
  obtain ⟨ids, -, hle, hall⟩ := h
  have hlength : 0 < ids.length := Nat.lt_of_lt_of_le hn hle
  obtain ⟨id, hid⟩ := List.exists_mem_of_length_pos hlength
  exact ⟨id, hall id hid⟩

/-- The ids that are in one list and not in the other are at least as many as are counted there. -/
theorem atLeast_without {n : Nat} {xs ys : List Int64} (hx : xs.Nodup)
    (hn : n ≤ (without xs ys).length) : AtLeast n fun id => id ∈ xs ∧ id ∉ ys := by
  refine ⟨without xs ys, hx.filter _, hn, fun id hid => ?_⟩
  simpa [without] using hid

/-! ### Path tests -/

namespace PathTest

/-- **Enough has come and gone** for the test between the key frame and a snapshot. Without a key
frame nothing was there before. -/
structure Enough (t : PathTest) (isPartial : Bool) (keyFrame : Option Snapshot) (s : Snapshot) :
    Prop where
  added : AtLeast t.addedCount.toNat fun id =>
    IsAt (some s) t.path isPartial id ∧ ¬ IsAt keyFrame t.path isPartial id
  removed : AtLeast t.removedCount.toNat fun id =>
    IsAt keyFrame t.path isPartial id ∧ ¬ IsAt (some s) t.path isPartial id

/-- **A test is only met if enough has come and gone.** -/
theorem enough_of_met (h : t.evaluate isPartial view = .met) (hs : view.snapshot.Ordered)
    (hk : ∀ s ∈ view.keyFrame, s.Ordered) : t.Enough isPartial view.keyFrame view.snapshot := by
  have hnow : (view.snapshot.idsAt t.path isPartial).Nodup := hs.nodup_idsAt t.path isPartial
  have hprior : ((view.keyFrame.map fun s => s.idsAt t.path isPartial).getD []).Nodup := by
    cases hkey : view.keyFrame with
    | none => exact .nil
    | some s => exact (hk s (by rw [hkey]; rfl)).nodup_idsAt t.path isPartial
  unfold evaluate at h
  dsimp only at h
  -- the number of entities, the rule about it, and only then the two counts
  split at h
  · exact absurd h (by simp)
  split at h
  · exact absurd h (by simp)
  split at h
  · exact absurd h (by simp)
  · next hcounts =>
    -- neither count is short, and the ids that are counted are all different
    obtain ⟨hadded, hremoved⟩ := not_or.mp hcounts
    have hcome := atLeast_without hnow (Nat.not_lt.mp hadded)
    have hgone := atLeast_without hprior (Nat.not_lt.mp hremoved)
    constructor
    · simpa only [isAt_iff, Option.map_some, Option.getD_some] using hcome
    · simpa only [isAt_iff, Option.map_some, Option.getD_some] using hgone

end PathTest

/-! ### Path criteria -/

namespace Criteria

variable {key : Key} {v : Version} {isTransient : Bool} {test : Test} {notes : Notes}

/-- A single criteria that is met was met before and is transient, or its test is met now. -/
theorem met_cases (h : (evaluateKeyed view key (.single v isTransient test) notes).1 = .ok .met) :
    isTransient ∧ key ∈ view.latched ∨ test.evaluate key view = .ok .met := by
  unfold evaluateKeyed at h
  split at h
  · cases h
  split at h
  · -- it was latched, so it has not been looked at
    next hl =>
    obtain ⟨ht, hl⟩ := Bool.and_eq_true_iff.mp hl
    exact .inl ⟨ht, List.contains_iff_mem.mp hl⟩
  split at h
  · cases h
  · next status he =>
    obtain rfl : status = .met := Except.ok.inj h
    exact .inr he

/-- **A path criteria is only met if enough has come and gone**, unless it was met before and keeps
to that. -/
theorem enough_of_met
    (h : (evaluateKeyed view key (.single v isTransient (.path isPartial t)) notes).1 = .ok .met)
    (hl : ¬ (isTransient ∧ key ∈ view.latched)) (hs : view.snapshot.Ordered)
    (hk : ∀ s ∈ view.keyFrame, s.Ordered) : t.Enough isPartial view.keyFrame view.snapshot := by
  have hmet : t.evaluate isPartial view = .met := Except.ok.inj ((met_cases h).resolve_left hl)
  exact PathTest.enough_of_met hmet hs hk

end Criteria

end Playtest
