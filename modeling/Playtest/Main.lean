import Playtest.Headless.Session

/-!
# The program

Reads the command line and the files that a session looks at, runs the session, prints what it
prints, and writes its result. Messages of errors go to the error output.
-/

namespace Playtest.Main

open Playtest.Headless Playtest.Resource

/-- What the program says if it is asked for help, or not used as it should be. -/
def usage : String :=
  "Usage: --frames <FRAMES> <--sequence <SEQUENCE>|--assignment <ASSIGNMENT>> [--config <CONFIG>]\n"
    ++ "  [--resource-root <DIR>] [--timeout <SECONDS>] [--frame-delta <SECONDS>]\n"
    ++ "  [--reporter in-memory|noop] [--no-progress] [--run-id <ID>]"

/-- What is on disk at the end of some names. -/
def look (names : List String) : IO (Option Content) := do
  let path := match names with
    | "/" :: rest => "/" ++ "/".intercalate rest
    | names => "/".intercalate names
  try
    return some (.ofBytes (← IO.FS.readBinFile path))
  catch _ =>
    let directory := (← IO.currentDir) / path
    return if ← directory.isDir then some .directory else none

/-- Adds what is on disk along a path. -/
def explore (files : Tree) (path : String) : IO Tree := do
  let names := namesIn path
  let mut files := files
  for n in List.range names.length do
    let way := names.take (n + 1)
    if let some content ← look way then
      files := files.put (way.foldl step []) content
  return files

/-- Adds everything that a session looks at. What is found may name more. -/
partial def exploreAll (o : Options) (s : Surroundings) (seen : List String) : IO Surroundings := do
  match (Session.wanted o s).filter fun path => !seen.contains path with
  | [] => return s
  | paths =>
      let files ← paths.foldlM explore s.files
      exploreAll o { s with files } (seen ++ paths)

/-- A text of letters that nobody has used before. -/
def randomText (length : Nat) : IO String := do
  let letters := (List.range length).mapM fun _ => do
    let n ← IO.rand 0 25
    return Char.ofNat (97 + n)
  return String.ofList (← letters)

/-- The time of day, which is that of a file that is made now. -/
def timeOfDay : IO Calendar.Instant := do
  let (_, file) ← IO.FS.createTempFile
  let made := (← file.metadata).modified
  IO.FS.removeFile file
  return ⟨made.sec, made.nsec.toNat⟩

/-- What a session gets from the machine it runs on. -/
def surroundings : IO Surroundings := do
  let now ← timeOfDay
  return {
    now
    startedAt := .ofInt now.seconds
    files := []
    resultsPath := ← IO.getEnv "RG_RESULTS_PATH"
    runId := ← randomText 21
    mark := ← randomText 8 }

/-- Writes what has come of a session. -/
def report (s : Surroundings) (outcome : SessionOutcome) : IO Unit := do
  IO.print outcome.printed
  for message in outcome.messages do
    if message.shownAt .error then IO.eprintln message.line
  match outcome.ending with
  | .error e => IO.eprintln (": ".intercalate e.texts)
  | .clockOverflow isDuration => IO.eprintln (clockMessage isDuration)
  | .success | .runFailed | .nothingToRun | .loadFailure => pure ()
  match outcome.stored with
  | some result =>
      IO.FS.withFile s.resultsFile .append fun handle => handle.putStr result.line
  | none => pure ()

/-- Runs a session. -/
def session (o : Options) : IO UInt32 := do
  let s ← exploreAll o (← surroundings) []
  let outcome := Session.run o s
  report s outcome
  return outcome.ending.exitCode.toUInt32

end Playtest.Main

/-- The program. -/
def main (arguments : List String) : IO UInt32 := do
  match Playtest.Headless.Options.ofArguments arguments with
  | .ok options => Playtest.Main.session options
  | .error .displayHelp => do
      IO.println Playtest.Main.usage
      return 0
  | .error fault => do
      IO.eprintln s!"error: {fault.name}"
      IO.eprintln Playtest.Main.usage
      return 2
