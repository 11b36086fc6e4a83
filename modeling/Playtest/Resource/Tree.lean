/-!
# Directory trees

What is on disk, as far as a run looks at it. A place is the list of names that lead to it from the
working directory, or from the top of the disk, which goes by the name `/`. A directory is there if
it is listed, or if anything is below it.

* `Tree.read` reads a file of text,
* `Tree.append` puts text at the end of a file.
-/

namespace Playtest.Resource

/-- What is at a place. -/
inductive Content where
  | text (content : String)
  /-- A file that does not hold text, with its lines in front of the first one that is none. -/
  | binary (before : String)
  | directory
  deriving Repr, DecidableEq

/-- Bytes cut at their line breaks, each line with its own. -/
def byteLines : List UInt8 → List (List UInt8)
  | [] => []
  | b :: rest =>
      match b == 10, byteLines rest with
      | false, line :: more => (b :: line) :: more
      | _, others => [b] :: others

/-- What is in a file of some bytes. -/
def Content.ofBytes (bytes : ByteArray) : Content :=
  match String.fromUTF8? bytes with
  | some content => .text content
  | none =>
      let texts := (byteLines bytes.toList).map fun line => String.fromUTF8? ⟨line.toArray⟩
      .binary (String.join ((texts.takeWhile Option.isSome).filterMap id))

/-- The names that lead from the working directory to a place. -/
abbrev Place := List String

/-- A **directory tree**. -/
abbrev Tree := List (Place × Content)

/-- Why a file cannot be used. -/
inductive FileFault where
  | notFound
  | notDirectory
  | isDirectory
  | nameTooLong
  | invalidName
  | notText
  deriving Repr, DecidableEq

/-- The wording of a fault. -/
def FileFault.message : FileFault → String
  | .notFound => "No such file or directory (os error 2)"
  | .notDirectory => "Not a directory (os error 20)"
  | .isDirectory => "Is a directory (os error 21)"
  | .nameTooLong => "File name too long (os error 36)"
  | .invalidName => "file name contained an unexpected NUL byte"
  | .notText => "stream did not contain valid UTF-8"

/-- The parts of a path between its slashes. -/
def parts : List Char → List (List Char)
  | [] => [[]]
  | '/' :: rest => [] :: parts rest
  | c :: rest =>
      match parts rest with
      | [] => [[c]]
      | part :: more => (c :: part) :: more

/-- The parts of a path that are not empty. -/
def components (path : String) : List String :=
  ((parts path.toList).map String.ofList).filter (· != "")

/-- Where a path begins: at the top of the disk, or in the working directory. -/
def origin (path : String) : List String := if path.toList.head? = some '/' then ["/"] else []

/-- The names in a path. Single dots lead nowhere else. -/
def namesIn (path : String) : List String := origin path ++ (components path).filter (· != ".")

/-- The names before the last part of a path. -/
def namesBefore (path : String) : List String :=
  origin path ++ (components path).dropLast.filter (· != ".")

/-- Whether a place is the working directory, above it, or the top of the disk. Such a place is
always a directory. -/
def isAbove (place : Place) : Bool := place == ["/"] || place.all (· == "..")

/-- Whether a place is below another one, and neither further up nor at the top of the disk. -/
def isBelow (place p : Place) : Bool :=
  place.isPrefixOf p &&
    match p.drop place.length with
    | [] => false
    | name :: _ => name != "/" && name != ".."

/-- The place that a name leads to from a directory. -/
def step (place : Place) (name : String) : Place :=
  if name = ".." then
    if place = ["/"] then place
    else if place.all (· == "..") then place ++ [".."]
    else place.dropLast
  else place ++ [name]

/-- Whether a path can only mean a directory. -/
def wantsDirectory (path : String) : Bool :=
  match (parts path.toList).getLast? with
  | some [] | some ['.'] => true
  | _ => false

/-- Whether no file can be made at a path, whatever is there: it ends in a slash or in dots. -/
def namesNoFile (path : String) : Bool :=
  wantsDirectory path || [".", ".."].contains ((components path).getLast?.getD ".")

/-- Paths that are refused before anything is looked up. -/
def checkPath (path : String) : Except FileFault Unit :=
  if path.toList.contains '\x00' then .error .invalidName
  else if path = "" then .error .notFound
  else if 4096 ≤ path.utf8ByteSize then .error .nameTooLong
  else .ok ()

namespace Tree

/-- What is at a place. -/
def get? (t : Tree) (place : Place) : Option Content :=
  match t.lookup place with
  | some content => some content
  | none =>
      if isAbove place || t.any fun entry => place.isPrefixOf entry.1 then some .directory else none

/-- Whether a directory is at a place. -/
def isDirectoryAt (t : Tree) (place : Place) : Bool := t.get? place == some .directory

/-- Follows names from a directory, up to a place where there need not be anything yet. -/
def follow (t : Tree) (place : Place) : List String → Except FileFault Place
  | [] => .ok place
  | name :: rest =>
      match t.get? place with
      | none => .error .notFound
      | some (.text _) | some (.binary _) => .error .notDirectory
      | some .directory =>
          if 255 < name.utf8ByteSize then .error .nameTooLong
          else follow t (step place name) rest

/-- The place that a path leads to. -/
def locate (t : Tree) (path : String) : Except FileFault Place := do
  checkPath path
  let place ← t.follow [] (namesIn path)
  match t.get? place with
  | some (.text _) | some (.binary _) =>
      if wantsDirectory path then .error .notDirectory else .ok place
  | some .directory | none => .ok place

/-- Follows names to a directory. -/
def enter (t : Tree) (names : List String) : Except FileFault Place := do
  let place ← t.follow [] names
  match t.get? place with
  | some .directory => .ok place
  | some (.text _) | some (.binary _) => .error .notDirectory
  | none => .error .notFound

/-- Reads a file line by line: its text, as far as there is any, and what is wrong behind that. -/
def readLines (t : Tree) (path : String) : Except FileFault (String × Option FileFault) :=
  match t.locate path with
  | .error fault => .error fault
  | .ok place =>
      match t.get? place with
      | some (.text content) => .ok (content, none)
      | some (.binary before) => .ok (before, some .notText)
      | some .directory => .ok ("", some .isDirectory)
      | none => .error .notFound

/-- **Reads a file of text.** -/
def read (t : Tree) (path : String) : Except FileFault String :=
  match t.readLines path with
  | .error fault => .error fault
  | .ok (_, some fault) => .error fault
  | .ok (content, none) => .ok content

/-- Whether a path leads to a directory. -/
def isDirectory (t : Tree) (path : String) : Bool :=
  match t.locate path with
  | .ok place => t.isDirectoryAt place
  | .error _ => false

/-- The tree with some content at a place. -/
def put (t : Tree) (place : Place) (content : Content) : Tree :=
  (t.filter fun entry => entry.1 != place) ++ [(place, content)]

/-- The tree of some files and their paths. Of several at one place the last one counts. -/
def ofFiles (files : List (String × Content)) : Tree :=
  files.foldl (fun t (path, content) => t.put ((namesIn path).foldl step []) content) []

/-- **Puts text at the end of a file**, which need not have been there. The directory that it is to
be in comes first; in it, a path that names no file counts as that of a directory. -/
def append (t : Tree) (path : String) (text : String) : Except FileFault Tree := do
  checkPath path
  let _ ← t.enter (namesBefore path)
  if namesNoFile path then throw .isDirectory
  let place ← t.follow [] (namesIn path)
  match t.get? place with
  | some .directory => throw .isDirectory
  | some (.binary _) => return t
  | some (.text content) => return t.put place (.text (content ++ text))
  | none => return t.put place (.text text)

/-- Whether the names of one place come before those of another. -/
def comesBefore : Place → Place → Bool
  | [], _ => true
  | _ :: _, [] => false
  | a :: as, b :: bs => a < b || (a == b && comesBefore as bs)

/-- The files below a place, in the order of their names: the rest of each one's place. -/
def filesBelow (t : Tree) (place : Place) : List Place :=
  let below := t.filterMap fun (p, content) =>
    if isBelow place p && content != .directory then some (p.drop place.length) else none
  below.mergeSort comesBefore

/-- The files below a directory, if a path leads to one. -/
def filesIn? (t : Tree) (directory : String) : Option (List Place) :=
  match t.locate directory with
  | .error _ => none
  | .ok place => if t.isDirectoryAt place then some (t.filesBelow place) else none

end Tree

end Playtest.Resource
