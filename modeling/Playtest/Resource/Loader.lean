import Playtest.Log
import Playtest.Playback.Playlist
import Playtest.Resource.Document
import Playtest.Resource.Path
import Playtest.Resource.Tree
import Playtest.Text.Causes

/-!
# Loading

A loader finds documents below its resource root. What it loads for playing is a playlist: every
entry of a sequence becomes one segment list, in the order of the entries.

* `Loader.document` loads one document,
* `Loader.playlist` loads what a path means as a playlist,
* `Loader.resolve` makes a playlist of a sequence,
* `discover?` finds all documents below a directory.
-/

namespace Playtest.Resource

/-- Why something cannot be loaded. -/
inductive LoadError where
  | foreignPath (path : String)
  | unreadable (file : String) (fault : FileFault)
  | notDocument (file : String) (reason : NotDocument)
  /-- A document that is too new, or an entry of a sequence that is not in a file. -/
  | unsupported (file : Option String) (reason : DocumentError)
  | nestedSequence
  | otherKind (expected : EntryKind) (found : String)
  | inEntry (position : Nat) (path : String) (cause : LoadError)
  | inSequence (path : String) (cause : LoadError)

namespace LoadError

/-- What went wrong, from the outside in. -/
def causes : LoadError → Text.Causes
  | .foreignPath path => .of (foreignMessage path)
  | .unreadable file fault => ⟨s!"Failed to read bot document {file}", [fault.message]⟩
  | .notDocument file reason => ⟨s!"Failed to parse bot document {file}", [reason.message]⟩
  | .unsupported (some file) reason => ⟨s!"Cannot play bot document {file}", [reason.message]⟩
  | .unsupported none reason => .of reason.message
  | .nestedSequence => .of "Sequences cannot be nested inside other sequences"
  | .otherKind expected found => .of s!"Expected a {expected.name} but found a {found}"
  | .inEntry position path cause => cause.causes.within s!"Sequence entry {position} `{path}`"
  | .inSequence path cause => cause.causes.within s!"Failed to resolve sequence `{path}`"

/-- The fault of a file that could not be read. -/
def fileFault? : LoadError → Option FileFault
  | .unreadable _ fault => some fault
  | .inEntry _ _ cause | .inSequence _ cause => cause.fileFault?
  | .foreignPath _ | .notDocument _ _ | .unsupported _ _ | .nestedSequence | .otherKind _ _ => none

end LoadError

/-- A **loader** of documents below a directory. -/
structure Loader where
  root : String
  tree : Tree

namespace Loader

/-- The file that a resource path means to a loader. -/
def file? (l : Loader) (path : String) : Option String := (resourcePath? path).map (joinPath l.root)

/-- The document in a file. -/
def ofFile (l : Loader) (file : String) : Except LoadError Document :=
  match l.tree.read file with
  | .error fault => .error (.unreadable file fault)
  | .ok json =>
      match Document.ofText json with
      | .error reason => .error (.notDocument file reason)
      | .ok document =>
          match document.unsupported? with
          | some reason => .error (.unsupported (some file) reason)
          | none => .ok document

/-- **Loads the document** that a resource path means. -/
def document (l : Loader) (path : String) : Except LoadError Document :=
  match l.file? path with
  | none => .error (.foreignPath path)
  | some file => l.ofFile file

/-- The segment list that a document is, where one of a kind is expected. -/
def listOf (kind : Option EntryKind) : Document → Except LoadError SegmentList
  | .sequence _ => .error .nestedSequence
  | .list list =>
      if kind = some .segment then .error (.otherKind .segment (Document.list list).kindName)
      else .ok list
  | .segment segment =>
      if kind = some .segmentList then
        .error (.otherKind .segmentList (Document.segment segment).kindName)
      else .ok (.ofSegment segment)

/-- The segment list of the entry at a position. -/
def entryList (l : Loader) (position : Nat) : Entry → Except LoadError SegmentList
  | .list list => .ok list.named
  | .segment segment => .ok (.ofSegment segment)
  | .reference kind path =>
      match (l.document path).bind (listOf kind) with
      | .ok list => .ok list
      | .error e => .error (.inEntry position path e)

/-- The segment lists of some entries, of which `position` is the first one's. -/
def entryLists (l : Loader) : (position : Nat) → List Entry → Except LoadError (List SegmentList)
  | _, [] => .ok []
  | position, e :: rest => do
      let list ← l.entryList position e
      let lists ← l.entryLists (position + 1) rest
      return list :: lists

/-- **Makes a playlist of a sequence.** -/
def resolve (l : Loader) (s : Sequence) : Except LoadError Playlist :=
  match (Document.sequence s).unsupported? with
  | some reason => .error (.unsupported none reason)
  | none => (l.entryLists 1 s.entries).map fun lists => ⟨s.name, lists⟩

/-- The playlist of the document that was found under a path. -/
def playlistOf (l : Loader) (path : String) : Document → Except LoadError Playlist
  | .sequence s => (l.resolve s).mapError (.inSequence path)
  | .list list => .ok (.ofList list)
  | .segment segment => .ok (.ofSegment segment)

/-- **Loads a playlist.** -/
def playlist (l : Loader) (path : String) : Except LoadError Playlist :=
  (l.document path).bind (l.playlistOf path)

/-- The files that are looked at to load a playlist, as far as that can be told from the ones that
are there. -/
def filesFor (l : Loader) (path : String) : List String :=
  match l.file? path with
  | none => []
  | some file =>
      match (l.tree.read file).toOption.bind fun json => (Document.ofText json).toOption with
      | some (.sequence s) =>
          file :: s.entries.filterMap fun e =>
            match e with
            | .reference _ path => l.file? path
            | .list _ | .segment _ => none
      | some (.list _) | some (.segment _) | none => [file]

end Loader

/-! ### Discovery -/

/-- A document with the path of its file. -/
structure Discovered where
  path : String
  document : Document

/-- Whether the last name of a place has a stem and the ending of documents. -/
def isDocumentName (place : Place) : Bool :=
  match place.getLast? with
  | none => false
  | some name => suffix.isSuffixOf name.toList && suffix.length < name.toList.length

/-- What is found in one file. What looks like a document and cannot be used is worth a warning. -/
def inspect (t : Tree) (path : String) : Option Discovered × List LogMessage :=
  match t.read path with
  | .error fault => (none, [⟨.warn, s!"Skipping {path}: {fault.message}"⟩])
  | .ok json =>
      match Document.ofText json with
      | .error _ => (none, [])
      | .ok document =>
          match document.unsupported? with
          | some reason => (none, [⟨.warn, s!"Skipping {path}: {reason.message}"⟩])
          | none => (some ⟨path, document⟩, [])

/-- What is found on a walk past files below a directory: the documents in the order of their paths,
and the warnings in the order of the walk. -/
def discoverOn (t : Tree) (directory : String) (walk : List Place) :
    List Discovered × List LogMessage :=
  let found := (walk.filter isDocumentName).map fun rest =>
      inspect t (rest.foldl joinPath directory)
  let documents := found.filterMap (·.1)
  (documents.mergeSort fun a b => Tree.comesBefore (namesIn a.path) (namesIn b.path),
    found.flatMap (·.2))

/-- What is said if there is no directory to look through. -/
def noDirectoryMessage (directory : String) : String :=
  s!"Cannot discover bot documents, {directory} is not a directory"

/-- **Finds all documents** below a directory, in the order of their paths; nothing if there is no
such directory. -/
def discover? (t : Tree) (directory : String) : Option (List Discovered × List LogMessage) :=
  (t.filesIn? directory).map (discoverOn t directory)

end Playtest.Resource
