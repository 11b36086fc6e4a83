import Playtest.Action
import Playtest.Scene.Frame
import Playtest.Text.Search

/-!
# Snapshots

The state of the game at one tick as everything else sees it: entities with their full paths, in the
order of their ids, and the screenshot.

* `Snapshot.entitiesAt`, `Snapshot.countAt`, `Snapshot.idsAt` look entities up by normalized path,
* `Snapshot.select` gives the entities that a target means.
-/

namespace Playtest.Scene

open Playtest.Json

/-- An **entity** with its place among the others. -/
structure Entity where
  id : Int64
  parentId : Option Int64
  path : String
  normalizedPath : String
  position : Option (List Float)
  attributes : Fields

namespace Entity

/-- The value of an attribute. The position counts as one if it is known. -/
def attribute? (e : Entity) (name : String) : Option Value :=
  match name == "position", e.position with
  | true, some p => some (.arr (p.map .ofFloat))
  | _, _ => e.attributes.get? name

/-- Whether an entity is at a normalized path, or has `path` as a part of its own. -/
def matchesPath (e : Entity) (path : String) (isPartial : Bool) : Bool :=
  if isPartial then Text.contains e.normalizedPath path else e.normalizedPath == path

/-- An entity as a document. -/
def toValue (e : Entity) : Value :=
  .obj [("id", .int (.ofInt64 e.id)),
    ("parentId", .ofOption (fun id => .int (.ofInt64 id)) e.parentId),
    ("path", .str e.path), ("normalizedPath", .str e.normalizedPath),
    ("position", .ofOption (fun p => .arr (p.map .ofFloat)) e.position),
    ("attributes", .obj e.attributes)]

end Entity

/-- Puts an entity in its place by id. An entity with the same id is replaced. -/
def insertEntity (e : Entity) : List Entity → List Entity
  | [] => [e]
  | d :: rest =>
      if e.id < d.id then e :: d :: rest
      else if e.id = d.id then e :: rest
      else d :: insertEntity e rest

/-- A **snapshot** of the game. -/
structure Snapshot where
  frame : UInt64
  time : Option Float
  /-- In the order of their ids. -/
  entities : List Entity
  screenshot : Option Vision.Screenshot

namespace Snapshot

/-- The snapshot of nothing. -/
def empty : Snapshot := ⟨0, none, [], none⟩

/-- The entities at a normalized path. -/
def entitiesAt (s : Snapshot) (path : String) (isPartial : Bool) : List Entity :=
  s.entities.filter fun e => e.matchesPath path isPartial

/-- How many entities are at a normalized path. -/
def countAt (s : Snapshot) (path : String) (isPartial : Bool) : Nat :=
  (s.entitiesAt path isPartial).length

/-- The ids of the entities at a normalized path. -/
def idsAt (s : Snapshot) (path : String) (isPartial : Bool) : List Int64 :=
  (s.entitiesAt path isPartial).map (·.id)

/-- The entity with an id. -/
def get? (s : Snapshot) (id : Int64) : Option Entity := s.entities.find? fun e => e.id == id

/-- The entities that a target means, in the order of their ids. -/
def select (s : Snapshot) : Target → List Entity
  | .id id => (s.get? id).toList
  | .path path => s.entities.filter fun e => e.path == path
  | .normalizedPath path => s.entitiesAt path false

end Snapshot

end Playtest.Scene
