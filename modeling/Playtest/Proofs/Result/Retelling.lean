import Mathlib.Data.List.Pairwise
import Mathlib.Data.List.Sort
import Playtest.Proofs.Result.Fingerprint

/-!
# What a fingerprint overlooks

A result **retells** another one when it is about the same sequence and their segments can be
paired, partners under the same names, so that the partners of two segments come in the same order
as these (`RunResult.Retells`). Everything else may be different: how the run and its segments did,
the numbers themselves, and where in the result each segment stands.

If each segment has a number of its own, there is only one way to put the segments in the order of
their numbers (`Numbered.ordered_eq`). So the pairs, put in the order of the first numbers, are in
the order of the second ones too (`Pairing.exists_sorted`), and one result has the names of the
other in the same order. That is all that a fingerprint looks at
(`RunResult.fingerprint_of_retold`), and nothing less would do: results of one shape retell each
other.
-/

namespace Playtest.RunResult

/-! ### Segments with numbers of their own -/

/-- The segments of a result are **numbered** if each has a number of its own. -/
def Numbered (r : RunResult) : Prop :=
  r.segments.Pairwise fun s s' => s.segmentNumber ≠ s'.segmentNumber

/-- What is sorted by a number goes up by that number. -/
theorem pairwise_sortedBy {α : Type} (number : α → UInt64) (xs : List α) :
    (xs.mergeSort fun a b => number a ≤ number b).Pairwise fun a b => number a ≤ number b := by
  refine List.Pairwise.imp (fun h => of_decide_eq_true h) (List.pairwise_mergeSort ?_ ?_ xs)
  · intro a b c hab hbc
    exact decide_eq_true (UInt64.le_trans (of_decide_eq_true hab) (of_decide_eq_true hbc))
  · intro a b
    rw [Bool.or_eq_true, decide_eq_true_iff, decide_eq_true_iff]
    exact UInt64.le_total _ _

/-- Putting segments in order loses none and adds none. -/
theorem ordered_perm (r : RunResult) : r.ordered.Perm r.segments := List.mergeSort_perm _ _

/-- In order, the numbers go up. -/
theorem pairwise_ordered (r : RunResult) :
    r.ordered.Pairwise fun s s' => s.segmentNumber ≤ s'.segmentNumber :=
  pairwise_sortedBy SegmentResult.segmentNumber r.segments

variable {r r' : RunResult}

namespace Numbered

/-- Segments are numbered in whatever order they stand. -/
theorem of_perm {ss : List SegmentResult} (h : r.Numbered) (hperm : ss.Perm r.segments) :
    ss.Pairwise fun s s' => s.segmentNumber ≠ s'.segmentNumber :=
  (hperm.pairwise_iff Ne.symm).mpr h

/-- Numbered segments are put in order in one way only. -/
theorem ordered_eq {ss : List SegmentResult} (h : r.Numbered) (hperm : ss.Perm r.segments)
    (hsorted : ss.Pairwise fun s s' => s.segmentNumber ≤ s'.segmentNumber) : r.ordered = ss := by
  -- two segments that may stand either way round have one number, so they are the same
  have hsame : ∀ a b, a ∈ r.ordered → b ∈ ss → a.segmentNumber ≤ b.segmentNumber →
      b.segmentNumber ≤ a.segmentNumber → a = b := by
    intro a b ha hb hab hba
    have ha : a ∈ r.segments := r.ordered_perm.mem_iff.mp ha
    have hb : b ∈ r.segments := hperm.mem_iff.mp hb
    by_contra hne
    have hsymm : Std.Symm fun s s' : SegmentResult => s.segmentNumber ≠ s'.segmentNumber :=
      ⟨fun _ _ => Ne.symm⟩
    exact List.Pairwise.forall h ha hb hne (UInt64.le_antisymm hab hba)
  exact (r.ordered_perm.trans hperm.symm).eq_of_pairwise hsame r.pairwise_ordered hsorted

/-- In order, numbered segments have ever higher numbers. -/
theorem lt_of_lt {i j : Nat} (h : r.Numbered) (hi : i < r.ordered.length)
    (hj : j < r.ordered.length) (hij : i < j) :
    r.ordered[i].segmentNumber < r.ordered[j].segmentNumber := by
  have hle := List.pairwise_iff_getElem.mp r.pairwise_ordered i j hi hj hij
  have hne := List.pairwise_iff_getElem.mp (h.of_perm r.ordered_perm) i j hi hj hij
  exact UInt64.lt_of_le_of_ne hle hne

end Numbered

/-! ### Retelling -/

/-- A **pairing** of the segments of two results: partners have the same names, and pairs come in
one order by the numbers of either side. -/
structure Pairing (r r' : RunResult) (pairs : List (SegmentResult × SegmentResult)) : Prop where
  first : (pairs.map Prod.fst).Perm r.segments
  second : (pairs.map Prod.snd).Perm r'.segments
  named : ∀ p ∈ pairs, p.1.listName = p.2.listName ∧ p.1.segmentName = p.2.segmentName
  inOrder : ∀ p ∈ pairs, ∀ q ∈ pairs, p.1.segmentNumber < q.1.segmentNumber →
    p.2.segmentNumber < q.2.segmentNumber

/-- A result is **retold** by another one about the same sequence if their segments can be
paired. -/
structure Retells (r r' : RunResult) : Prop where
  sequenceName : r.sequenceName = r'.sequenceName
  pairing : ∃ pairs, r.Pairing r' pairs

/-- The pairs can be put in the order of both results at once. -/
theorem Pairing.exists_sorted {pairs : List (SegmentResult × SegmentResult)}
    (h : r.Pairing r' pairs) (hnumbered : r.Numbered) :
    ∃ sorted, r.Pairing r' sorted ∧ sorted.map Prod.fst = r.ordered ∧
      sorted.map Prod.snd = r'.ordered := by
  let sorted := pairs.mergeSort fun p q => p.1.segmentNumber ≤ q.1.segmentNumber
  have hperm : sorted.Perm pairs := List.mergeSort_perm _ _
  have hpairing : r.Pairing r' sorted :=
    { first := (hperm.map Prod.fst).trans h.first
      second := (hperm.map Prod.snd).trans h.second
      named := fun p hp => h.named p (hperm.mem_iff.mp hp)
      inOrder := fun p hp q hq => h.inOrder p (hperm.mem_iff.mp hp) q (hperm.mem_iff.mp hq) }
  have hle : sorted.Pairwise fun p q => p.1.segmentNumber ≤ q.1.segmentNumber :=
    pairwise_sortedBy (fun p => p.1.segmentNumber) pairs
  have hne : sorted.Pairwise fun p q => p.1.segmentNumber ≠ q.1.segmentNumber :=
    List.pairwise_map (R := fun s s' : SegmentResult => s.segmentNumber ≠ s'.segmentNumber).mp
      (hnumbered.of_perm hpairing.first)
  -- the first numbers go up, so the second ones do
  have hlt : sorted.Pairwise fun p q => p.2.segmentNumber < q.2.segmentNumber := by
    refine (hle.and hne).imp_of_mem fun hp hq hpq => ?_
    exact hpairing.inOrder _ hp _ hq (UInt64.lt_of_le_of_ne hpq.1 hpq.2)
  have hnumbered' : r'.Numbered := by
    have hsecond : (sorted.map Prod.snd).Pairwise fun s s' => s.segmentNumber ≠ s'.segmentNumber :=
      List.pairwise_map.mpr (hlt.imp fun hpq => UInt64.ne_of_lt hpq)
    exact (hpairing.second.pairwise_iff Ne.symm).mp hsecond
  refine ⟨sorted, hpairing, ?_, ?_⟩
  · exact (hnumbered.ordered_eq hpairing.first (List.pairwise_map.mpr hle)).symm
  · exact (hnumbered'.ordered_eq hpairing.second
      (List.pairwise_map.mpr (hlt.imp UInt64.le_of_lt))).symm

/-- A result that is retold keeps its shape. -/
theorem Retells.shape_eq (h : r.Retells r') (hnumbered : r.Numbered) : r.shape = r'.shape := by
  obtain ⟨hname, pairs, hpairing⟩ := h
  obtain ⟨sorted, hsorted, hfirst, hsecond⟩ := hpairing.exists_sorted hnumbered
  unfold shape
  rw [hname, ← hfirst, ← hsecond, List.map_map, List.map_map]
  -- sorted by one numbering or the other, the pairs stand for the same segments
  have hnames : ∀ p ∈ sorted,
      (p.1.listName, p.1.segmentName) = (p.2.listName, p.2.segmentName) := by
    intro p hp
    obtain ⟨hlist, hsegment⟩ := hsorted.named p hp
    rw [hlist, hsegment]
  exact congrArg (Prod.mk r'.sequenceName) (List.map_congr_left hnames)

/-- Numbered results of one shape retell each other: the segments that stand at one place in the
order are partners. -/
theorem retells_of_shape_eq (hnumbered : r.Numbered) (hnumbered' : r'.Numbered)
    (h : r.shape = r'.shape) : r.Retells r' := by
  obtain ⟨hname, hnames⟩ := Prod.mk.inj h
  have hlength : r.ordered.length = r'.ordered.length := by
    have := congrArg List.length hnames
    rwa [List.length_map, List.length_map] at this
  refine ⟨hname, r.ordered.zip r'.ordered, ?_, ?_, ?_, ?_⟩
  · rw [List.map_fst_zip (Nat.le_of_eq hlength)]
    exact r.ordered_perm
  · rw [List.map_snd_zip (Nat.le_of_eq hlength.symm)]
    exact r'.ordered_perm
  · -- partners stand at one place in the order, and so they have the same names
    intro p hp
    obtain ⟨i, hi, rfl⟩ := List.getElem_of_mem hp
    rw [List.length_zip, Nat.lt_min] at hi
    have hat : (r.ordered.map fun s => (s.listName, s.segmentName))[i]? =
        (r'.ordered.map fun s => (s.listName, s.segmentName))[i]? := congrArg (·[i]?) hnames
    simpa [hi] using hat
  · -- in both results the numbers go up with the place
    intro p hp q hq hlt
    obtain ⟨i, hi, rfl⟩ := List.getElem_of_mem hp
    obtain ⟨j, hj, rfl⟩ := List.getElem_of_mem hq
    rw [List.length_zip, Nat.lt_min] at hi hj
    rw [List.getElem_zip, List.getElem_zip] at hlt ⊢
    have hij : i < j := by
      by_contra hge
      obtain rfl | hji := Nat.eq_or_lt_of_le (Nat.le_of_not_lt hge)
      · exact UInt64.lt_irrefl _ hlt
      · exact UInt64.lt_irrefl _ (UInt64.lt_trans hlt (hnumbered.lt_of_lt hj.1 hi.1 hji))
    exact hnumbered'.lt_of_lt hi.2 hj.2 hij

/-- **What a fingerprint overlooks.** If each segment of a result has a number of its own, then
every result that retells it has the same fingerprint, however the segments are stored and
renumbered and whatever else is told of the run and its segments. Between numbered results retelling
is what it means to have one shape, so no other change is overlooked that the shape tells. -/
theorem fingerprint_of_retold :
    (∀ r r' : RunResult, r.Numbered → r.Retells r' → r'.fingerprint = r.fingerprint) ∧
      ∀ r r' : RunResult, r.Numbered → r'.Numbered → (r.Retells r' ↔ r.shape = r'.shape) := by
  refine ⟨fun r r' hnumbered h => ?_, fun r r' hnumbered hnumbered' => ?_⟩
  · have hnames : r'.names = r.names := (names_eq_iff.mpr (h.shape_eq hnumbered)).symm
    unfold fingerprint
    rw [fingerprintBytes_eq, fingerprintBytes_eq, hnames]
  · exact ⟨fun h => h.shape_eq hnumbered, retells_of_shape_eq hnumbered hnumbered'⟩

/-- A segment of the list `Main` in a run. -/
def stop (name : String) (number : UInt64) (outcome : Outcome) (elapsed : Float) :
    SegmentResult where
  listName := "Main"
  segmentName := name
  segmentNumber := number
  outcome := outcome
  isRequired := true
  passed := outcome == .completed
  elapsed := elapsed
  ticks := 3
  detail := none
  validationsTimedOut := false

/-- A tour that was broken off. -/
def firstTour : RunResult where
  runId := "a"
  sequenceName := "Smoke"
  startedAt := 1700000000
  duration := 1.5
  success := false
  saveLocation := "results/a"
  segments := [stop "Start" 1 .completed 0.5, stop "Play" 2 .timedOut 1.0,
    stop "Quit" 3 .notStarted 0.0]

/-- The same tour on another day, with its last stop stored first. -/
def laterTour : RunResult where
  runId := "b"
  sequenceName := "Smoke"
  startedAt := 1800000000
  duration := 20.0
  success := true
  saveLocation := "results/b"
  segments := [stop "Quit" 30 .completed 2.5, stop "Start" 10 .completed 7.5,
    stop "Play" 20 .completed 10.0]

/-- The later tour has the fingerprint of the first one. -/
theorem tour_is_retold :
    firstTour.Numbered ∧ laterTour.Numbered ∧ firstTour.Retells laterTour ∧
      laterTour.fingerprint = firstTour.fingerprint ∧ firstTour.shape = laterTour.shape := by
  have hfirst : firstTour.Numbered := by
    unfold Numbered
    decide
  have hlater : laterTour.Numbered := by
    unfold Numbered
    decide
  have hretells : firstTour.Retells laterTour :=
    { sequenceName := rfl
      pairing := by
        -- each stop beside the one it is told as; later the last one was stored first
        refine ⟨[(stop "Start" 1 .completed 0.5, stop "Start" 10 .completed 7.5),
          (stop "Play" 2 .timedOut 1.0, stop "Play" 20 .completed 10.0),
          (stop "Quit" 3 .notStarted 0.0, stop "Quit" 30 .completed 2.5)], .refl _,
            ?_, by decide, by decide⟩
        change ([stop "Start" 10 .completed 7.5, stop "Play" 20 .completed 10.0] ++
          [stop "Quit" 30 .completed 2.5]).Perm _
        exact List.perm_append_comm }
  obtain ⟨hsame, hshape⟩ := fingerprint_of_retold
  exact ⟨hfirst, hlater, hretells, hsame _ _ hfirst hretells,
    (hshape _ _ hfirst hlater).mp hretells⟩

end Playtest.RunResult
