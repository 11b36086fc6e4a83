import Playtest.Log
import Playtest.Scene.Name
import Playtest.Scene.Snapshot

/-!
# Resolving frames

A resolver turns frames into snapshots. The path of an object is the names of all its ancestors and
its own, from the root down. Once the path of an id is complete it is remembered, and the id keeps
it until the resolver is reset, whatever the game reports about names and parents later.

* `lineage` climbs from an object to its root; it stops where a parent is missing, and where the
  chain is longer than the number of objects, which only a cycle can be,
* `Resolver.resolve` resolves a frame.
-/

namespace Playtest.Scene

/-- The names on the way to an entity, with and without suffixes. -/
structure Path where
  path : String
  normalizedPath : String
  deriving Repr, DecidableEq

namespace Object

/-- What an object is called: its name if it has one to show, else its components, else its id. -/
def displayName (o : Object) : String :=
  match o.name with
  | some name => if Text.allBlank name then unnamed else name
  | none => unnamed
where
  /-- What an object without a name is called. -/
  unnamed : String :=
    if o.components.isEmpty then s!"Entity-{o.id.toInt}" else compositeIdentity o.components

end Object

/-- How the way up from an object ends. -/
inductive Ending where
  | root
  | missingParent
  | cycle
  deriving Repr, DecidableEq

namespace Frame

/-- The object with an id; of several the last. -/
def object? (f : Frame) (id : Int64) : Option Object := f.objects.reverse.find? fun o => o.id == id

/-- The different ids of a frame's objects. -/
def ids (f : Frame) : List Int64 :=
  f.objects.foldr (fun o acc => if acc.contains o.id then acc else o.id :: acc) []

end Frame

/-- The objects above one with the given parent, nearest first, and how the way up ends. -/
def ancestors (f : Frame) : (limit : Nat) → (parent : Option Int64) → List Object × Ending
  | _, none => ([], .root)
  | 0, some _ => ([], .cycle)
  | limit + 1, some id =>
      match f.object? id with
      | none => ([], .missingParent)
      | some o =>
          let (above, ending) := ancestors f limit o.parentId
          (o :: above, ending)

/-- An object and its ancestors, nearest first, and how the way up ends. -/
def lineage (f : Frame) (o : Object) : List Object × Ending :=
  let (above, ending) := ancestors f f.ids.length o.parentId
  (o :: above, ending)

/-- The path that a lineage makes, from the root down. -/
def Path.ofLineage (lineage : List Object) : Path :=
  let names := lineage.reverse.map Object.displayName
  ⟨"/".intercalate names, "/".intercalate (names.map normalizeName)⟩

/-- The paths that are remembered, by id. -/
structure Resolver where
  paths : List (Int64 × Path)

namespace Resolver

/-- Nothing is remembered. -/
def fresh : Resolver := ⟨[]⟩

/-- Forgets all paths. -/
def reset (_ : Resolver) : Resolver := fresh

/-- The remembered path of an id. -/
def path? (r : Resolver) (id : Int64) : Option Path :=
  (r.paths.find? fun entry => entry.1 == id).map (·.2)

/-- Remembers the path of an id that has none yet. -/
def remember (r : Resolver) (id : Int64) (path : Path) : Resolver := ⟨(id, path) :: r.paths⟩

/-- The path of an object, and the resolver that may have remembered it. -/
def pathOf (r : Resolver) (f : Frame) (o : Object) : Path × Resolver × List LogMessage :=
  match r.path? o.id with
  | some path => (path, r, [])
  | none =>
      let (line, ending) := lineage f o
      let path := Path.ofLineage line
      match ending with
      | .root => (path, r.remember o.id path, [])
      | .missingParent => (path, r, [])
      | .cycle =>
          (path, r, [⟨.warn, s!"Parent chain of entity {o.id.toInt} contains a cycle"⟩])

/-- An object with its path. -/
def entity (o : Object) (path : Path) : Entity :=
  { id := o.id
    parentId := o.parentId
    path := path.path
    normalizedPath := path.normalizedPath
    position := o.position
    attributes := o.attributes }

/-- Resolves objects one after another into the entities that came before. -/
def resolveObjects (f : Frame) :
    Resolver → List Entity → List Object → List Entity × Resolver × List LogMessage
  | r, acc, [] => (acc, r, [])
  | r, acc, o :: rest =>
      let (path, r, messages) := r.pathOf f o
      let (entities, r, more) := resolveObjects f r (insertEntity (entity o path) acc) rest
      (entities, r, messages ++ more)

/-- **Resolves a frame.** -/
def resolve (r : Resolver) (f : Frame) : Snapshot × Resolver × List LogMessage :=
  let (entities, r, messages) := resolveObjects f r [] f.objects
  (⟨f.number, f.time, entities, f.screenshot⟩, r, messages)

end Resolver

end Playtest.Scene
