import Playtest.Number.Decimal
import Playtest.Report.Table
import Playtest.Result.Basic

/-!
# Reporters

A reporter is told the result of every segment when a run has ended, and then that there are no
more. A reporter that keeps results prints two tables at that point: the segments one by one, and a
summary in which neighbours of one list name share a row.

* `Reporter.add` and `Reporter.finish` are the two things it is told,
* `listRows` makes the summary.
-/

namespace Playtest.Report

/-- What a reporter does with results. -/
inductive ReporterKind where
  /-- Keeps results, and prints tables of them. -/
  | inMemory
  | noop
  deriving Repr, DecidableEq

namespace ReporterKind

/-- The kind that is used if none is asked for. -/
def default : ReporterKind := .inMemory

/-- The name of a kind. -/
def name : ReporterKind → String
  | .inMemory => "in-memory"
  | .noop => "noop"

/-- The kind with a name. -/
def ofName? (name : String) : Option ReporterKind :=
  if name = "in-memory" then some .inMemory else if name = "noop" then some .noop else none

/-- What is said about a name that no kind has. -/
def unknownMessage (name : String) : String :=
  s!"Unknown reporter `{name}`, expected `in-memory` or `noop`"

end ReporterKind

/-- A row of the summary: neighbouring results of one list. -/
structure ListRow where
  list : String
  segments : Nat
  passed : Nat
  notPassed : Nat
  elapsed : Float

/-- The row of one result. -/
def ListRow.of (r : SegmentResult) : ListRow :=
  { list := r.listName
    segments := 1
    passed := if r.passed then 1 else 0
    notPassed := if r.passed then 0 else 1
    elapsed := 0.0 + r.elapsed }

/-- The row with one result more. -/
def ListRow.add (row : ListRow) (r : SegmentResult) : ListRow :=
  { row with
    segments := row.segments + 1
    passed := if r.passed then row.passed + 1 else row.passed
    notPassed := if r.passed then row.notPassed else row.notPassed + 1
    elapsed := row.elapsed + r.elapsed }

/-- The rows of some results that follow a row that may still grow. -/
def listRowsFrom (row : ListRow) : List SegmentResult → List ListRow
  | [] => [row]
  | r :: rest =>
      if row.list = r.listName then listRowsFrom (row.add r) rest
      else row :: listRowsFrom (.of r) rest

/-- **The summary**: results cut where the list name changes. -/
def listRows : List SegmentResult → List ListRow
  | [] => []
  | r :: rest => listRowsFrom (.of r) rest

/-- A row of the summary as cells. -/
def ListRow.cells (row : ListRow) : List String :=
  [row.list, toString row.segments, toString row.passed, toString row.notPassed,
    Number.fixed 2 row.elapsed]

/-- How a segment ended, with the reason if there is one. -/
def outcomeText (r : SegmentResult) : String :=
  match r.detail with
  | some detail => s!"{r.outcome.name} ({detail})"
  | none => r.outcome.name

/-- A result as cells. -/
def segmentCells (r : SegmentResult) : List String :=
  [toString r.segmentNumber.toNat, r.listName, r.segmentName, outcomeText r, toString r.isRequired,
    toString r.passed, Number.fixed 2 r.elapsed, toString r.ticks.toNat]

/-- The table of the segments. -/
def segmentTable (rs : List SegmentResult) : String :=
  table ["#", "list", "segment", "outcome", "required", "passed", "elapsed_s", "ticks"]
    (rs.map segmentCells)

/-- The table of the lists. -/
def listTable (rs : List SegmentResult) : String :=
  table ["list", "segments", "passed", "not_passed", "total_elapsed_s"]
    ((listRows rs).map ListRow.cells)

/-- Both tables under their titles. -/
def summary (rs : List SegmentResult) : String :=
  "\nSummary of segments\n" ++ segmentTable rs ++ "\n\nSummary of segment lists\n" ++ listTable rs
    ++ "\n"

/-- Something that a reporter is told. -/
inductive Notice where
  | segment (result : SegmentResult)
  /-- There are no more results. -/
  | finish

/-- A **reporter**. -/
structure Reporter where
  kind : ReporterKind
  /-- Everything that it was told, the first thing first. -/
  notices : List Notice
  /-- Everything that it has printed. -/
  printed : String

namespace Reporter

/-- A reporter that was told nothing. -/
def of (kind : ReporterKind) : Reporter := ⟨kind, [], ""⟩

/-- The results that it was told. -/
def results (r : Reporter) : List SegmentResult :=
  r.notices.filterMap fun n =>
    match n with
    | .segment result => some result
    | .finish => none

/-- Tells the reporter a result. -/
def add (r : Reporter) (result : SegmentResult) : Reporter :=
  { r with notices := r.notices ++ [.segment result] }

/-- Tells the reporter that there are no more results. -/
def finish (r : Reporter) : Reporter :=
  { r with
    notices := r.notices ++ [.finish]
    printed := match r.kind with
      | .inMemory => r.printed ++ summary r.results
      | .noop => r.printed }

/-- Tells the reporter all results of a run. -/
def addAll (r : Reporter) (results : List SegmentResult) : Reporter := (results.foldl add r).finish

end Reporter

end Playtest.Report
