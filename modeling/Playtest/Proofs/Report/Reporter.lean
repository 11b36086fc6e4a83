import Mathlib.Algebra.Ring.Nat
import Mathlib.Data.List.Forall2
import Mathlib.Data.List.SplitBy
import Playtest.Report.Reporter

/-!
# What a reporter is told, and the rows that it makes of that

The summary has a row for each **run** of results, that is for neighbours of one list name
(`listRuns`). The rows are made in one pass that knows only the row it has opened last, so what
carries this module is that the open row is a tally of what was read since it was opened:
`ListRow.Tallies` holds when a row is opened (`ListRow.tallies_of`) and as long as it grows
(`ListRow.Tallies.add`). A row is closed where the next result has another name, and there a run
ends as well (`forall₂_tallies_listRowsFrom`).
-/

namespace Playtest.Report

/-! ### What a reporter is told -/

namespace Reporter

variable (reporter : Reporter) (results : List SegmentResult)

/-- Each result is one notice. -/
theorem notices_foldl_add :
    (results.foldl add reporter).notices = reporter.notices ++ results.map .segment := by
  induction results generalizing reporter with
  | nil => exact (List.append_nil _).symm
  | cons r rest ih =>
    rw [List.foldl_cons, ih, add, List.append_assoc]
    rfl

/-- What a reporter is told about some results: one after another, and then that there are no
more. -/
theorem notices_addAll :
    (reporter.addAll results).notices = reporter.notices ++ results.map .segment ++ [.finish] := by
  change (results.foldl add reporter).notices ++ [.finish] = _
  rw [notices_foldl_add]

/-- A reporter keeps the results that it is told, in their order. -/
theorem results_foldl_add : (results.foldl add reporter).results = reporter.results ++ results := by
  rw [Reporter.results, notices_foldl_add, List.filterMap_append, List.filterMap_map]
  exact congrArg (reporter.results ++ ·) List.filterMap_some

end Reporter

/-! ### Rows as tallies -/

variable {row : ListRow} {run : List SegmentResult}

/-- The row **tallies** some results: there are some, they all have its list name, and its numbers
are theirs. Seconds are added up from zero in the order of the results. -/
structure ListRow.Tallies (row : ListRow) (run : List SegmentResult) : Prop where
  ne_nil : run ≠ []
  sameList : ∀ r ∈ run, r.listName = row.list
  segments : row.segments = run.length
  passed : row.passed = run.countP (·.passed)
  notPassed : row.notPassed = run.countP (!·.passed)
  elapsed : row.elapsed = run.foldl (fun total r => total + r.elapsed) 0.0

namespace ListRow

/-- A row is opened with the one result that it is opened for. -/
theorem tallies_of (r : SegmentResult) : (of r).Tallies [r] where
  ne_nil := List.cons_ne_nil _ _
  sameList := by simp [of]
  segments := rfl
  passed := by simp [of, List.countP_singleton]
  notPassed := by cases hp : r.passed <;> simp [of, hp]
  elapsed := rfl

/-- One more result of its list is tallied by the row that has grown by it. -/
theorem Tallies.add (h : row.Tallies run) {r : SegmentResult} (hr : row.list = r.listName) :
    (row.add r).Tallies (run ++ [r]) where
  ne_nil := List.append_ne_nil_of_left_ne_nil h.ne_nil _
  sameList := by
    intro s hs
    rcases List.mem_append.1 hs with hs | hs
    · exact h.sameList s hs
    · rw [List.mem_singleton.1 hs]
      exact hr.symm
  segments := by simp [ListRow.add, h.segments]
  passed := by cases hp : r.passed <;> simp [ListRow.add, h.passed, hp]
  notPassed := by cases hp : r.passed <;> simp [ListRow.add, h.notPassed, hp]
  elapsed := by
    rw [List.foldl_append, ← h.elapsed]
    rfl

/-- A result has passed or it has not. -/
theorem Tallies.segments_eq_add (h : row.Tallies run) :
    row.segments = row.passed + row.notPassed := by
  rw [h.segments, h.passed, h.notPassed]
  simpa using List.length_eq_countP_add_countP (l := run) (·.passed)

end ListRow

/-! ### Rows and runs -/

/-- The **runs** of some results: cut between neighbours of different list names, and nowhere
else. -/
def listRuns (results : List SegmentResult) : List (List SegmentResult) :=
  results.splitBy fun r s => r.listName == s.listName

theorem flatten_listRuns (results : List SegmentResult) : (listRuns results).flatten = results :=
  List.flatten_splitBy _ _

/-- What one row tallies is one run. -/
theorem ListRow.Tallies.listRuns_eq (h : row.Tallies run) : listRuns run = [run] := by
  refine List.splitBy_of_isChain h.ne_nil
    (List.Pairwise.isChain (List.pairwise_of_forall_mem_list fun r hr s hs => ?_))
  rw [h.sameList r hr, h.sameList s hs, beq_self_eq_true]

/-- A run ends in front of a result that is not of its list. -/
theorem ListRow.Tallies.listRuns_append_cons (h : row.Tallies run) {r : SegmentResult}
    (hr : row.list ≠ r.listName) (rest : List SegmentResult) :
    listRuns (run ++ r :: rest) = run :: listRuns (r :: rest) := by
  have hlast : ∀ s ∈ run.getLast?, (s.listName == r.listName) = false := fun s hs => by
    rw [h.sameList s (List.mem_of_getLast? hs), beq_eq_false_iff_ne]
    exact hr
  rw [listRuns, List.splitBy_append_cons rest hlast]
  exact congrArg (· ++ listRuns (r :: rest)) h.listRuns_eq

/-- **Rows tally the runs.** If the open row tallies what was read since it was opened, then it and
the rows behind it tally the runs of that and all that is still to be read. -/
theorem forall₂_tallies_listRowsFrom (h : row.Tallies run) (rest : List SegmentResult) :
    List.Forall₂ ListRow.Tallies (listRowsFrom row rest) (listRuns (run ++ rest)) := by
  induction rest generalizing row run with
  | nil =>
    rw [List.append_nil, h.listRuns_eq]
    exact .cons h .nil
  | cons r rest ih =>
    by_cases hr : row.list = r.listName
    · -- the row grows, and so does its run
      rw [listRowsFrom, if_pos hr, List.append_cons]
      exact ih (h.add hr)
    · -- the open row is closed, and its run with it
      rw [listRowsFrom, if_neg hr, h.listRuns_append_cons hr]
      exact .cons h (ih (ListRow.tallies_of r))

/-- **The rows of the summary tally the runs**, the first one being opened for the first result. -/
theorem forall₂_tallies_listRows (results : List SegmentResult) :
    List.Forall₂ ListRow.Tallies (listRows results) (listRuns results) := by
  cases results with
  | nil => exact .nil
  | cons r rest => exact forall₂_tallies_listRowsFrom (ListRow.tallies_of r) rest

/-! ### Neighbours -/

/-- The open row keeps its name until it is closed. -/
theorem list_of_mem_head? {rest : List SegmentResult} {first : ListRow}
    (h : first ∈ (listRowsFrom row rest).head?) : first.list = row.list := by
  induction rest generalizing row with
  | nil =>
    obtain rfl : row = first := Option.some.inj h
    rfl
  | cons r rest ih =>
    rw [listRowsFrom] at h
    split at h
    · -- a row that grows has the name that it had
      change first.list = (row.add r).list
      exact ih h
    · obtain rfl : row = first := Option.some.inj h
      rfl

/-- A row is closed only by a result of another name. -/
theorem isChain_listRowsFrom (row : ListRow) (rest : List SegmentResult) :
    (listRowsFrom row rest).IsChain fun row next => row.list ≠ next.list := by
  induction rest generalizing row with
  | nil => exact .singleton _
  | cons r rest ih =>
    rw [listRowsFrom]
    split
    · -- the row goes on, or the next one begins with another name
      exact ih _
    · next hr =>
      refine List.isChain_cons.2 ⟨fun next hnext => ?_, ih _⟩
      rw [list_of_mem_head? hnext]
      exact hr

/-- Neighbouring rows have different names. -/
theorem isChain_listRows (results : List SegmentResult) :
    (listRows results).IsChain fun row next => row.list ≠ next.list := by
  cases results with
  | nil => exact .nil
  | cons r rest => exact isChain_listRowsFrom _ _

/-! ### Totals -/

/-- What can be told from a row can be told from its run. -/
theorem map_listRows {α : Type} {f : ListRow → α} {g : List SegmentResult → α}
    (h : ∀ row run, row.Tallies run → f row = g run) (results : List SegmentResult) :
    (listRows results).map f = (listRuns results).map g := by
  rw [← List.forall₂_eq_eq_eq, List.forall₂_map_left_iff, List.forall₂_map_right_iff]
  exact (forall₂_tallies_listRows results).imp h

/-- No result is lost or counted twice. -/
theorem sum_segments (results : List SegmentResult) :
    ((listRows results).map (·.segments)).sum = results.length :=
  calc ((listRows results).map (·.segments)).sum
    _ = ((listRuns results).map List.length).sum := by rw [map_listRows fun _ _ h => h.segments]
    _ = (listRuns results).flatten.length := List.length_flatten.symm
    _ = results.length := by rw [flatten_listRuns]

/-- Nor is any that passed. -/
theorem sum_passed (results : List SegmentResult) :
    ((listRows results).map (·.passed)).sum = results.countP (·.passed) :=
  calc ((listRows results).map (·.passed)).sum
    _ = ((listRuns results).map (List.countP (·.passed))).sum := by
      rw [map_listRows fun _ _ h => h.passed]
    _ = (listRuns results).flatten.countP (·.passed) := List.countP_flatten.symm
    _ = results.countP (·.passed) := by rw [flatten_listRuns]

/-- **Each row is a run.** The rows of the summary of some results stand one for one for the runs of
them. Put together in order, the runs are the results. Each run is not empty and has the list name
of its row throughout, while neighbouring rows have different names. A row has as many segments as
its run has results, and these are those that passed, which it counts, and those that did not. So
all rows together have as many segments, and as many that passed, as there are. -/
theorem rows_tally_runs (results : List SegmentResult) :
    let rows := listRows (results.foldl Reporter.add (.of .inMemory)).results
    (listRuns results).flatten = results ∧
      List.Forall₂ (fun row run => row.Tallies run ∧ row.segments = row.passed + row.notPassed)
        rows (listRuns results) ∧
      rows.IsChain (fun row next => row.list ≠ next.list) ∧
      (rows.map (·.segments)).sum = results.length ∧
      (rows.map (·.passed)).sum = results.countP (·.passed) := by
  intro rows
  have hrows : rows = listRows results :=
    congrArg listRows (Reporter.results_foldl_add (.of .inMemory) results)
  rw [hrows]
  have htallies := (forall₂_tallies_listRows results).imp fun _ _ h => And.intro h h.segments_eq_add
  exact ⟨flatten_listRuns results, htallies, isChain_listRows results, sum_segments results,
    sum_passed results⟩

/-- A list that is played again has a second row. -/
example :
    (listRows [.notStarted "Menu" "Open" 1 true, .notStarted "Menu" "Close" 2 true,
      .notStarted "Game" "Start" 3 true, .notStarted "Menu" "Open" 4 true]).map
      (fun row => (row.list, row.segments)) =
        [("Menu", 2), ("Game", 1), ("Menu", 1)] := by
  decide

end Playtest.Report
