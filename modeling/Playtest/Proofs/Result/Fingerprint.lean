import Playtest.Proofs.Text.Bytes
import Playtest.Result.Basic

/-!
# What a fingerprint tells apart

A fingerprint stands for the **shape** of a played sequence: its name, and the names of its lists
and segments in the order of their numbers. What is digested is all these names, one directly after
the other, and nothing says where a name ends. So the fingerprint does not identify the shape
(`RunResult.shapes_run_together`): it tells two shapes apart when their names differ as one text,
and that they do unless one name goes on where the other ends (`RunResult.bytes_tell_texts_apart`).
-/

namespace Playtest

/-! ### The first difference -/

/-- Different lists go the same way up to a place where they are different. -/
theorem exists_first_difference {α : Type} : ∀ {as bs : List α}, as ≠ bs →
    ∃ before rest rest', as = before ++ rest ∧ bs = before ++ rest' ∧ rest.head? ≠ rest'.head?
  | [], [], h => absurd rfl h
  | [], b :: bs, _ => ⟨[], [], b :: bs, rfl, rfl, nofun⟩
  | a :: as, [], _ => ⟨[], a :: as, [], rfl, rfl, nofun⟩
  | a :: as, b :: bs, h => by
    -- they go on together as long as their heads agree
    by_cases heads : a = b
    · subst heads
      obtain ⟨before, rest, rest', hrest, hrest', hne⟩ :=
        exists_first_difference fun hsame : as = bs => h (by rw [hsame])
      exact ⟨a :: before, rest, rest', by rw [hrest, List.cons_append],
        by rw [hrest', List.cons_append], hne⟩
    · exact ⟨[], a :: as, b :: bs, rfl, rfl, fun hsame => heads (Option.some.inj hsame)⟩

namespace RunResult

/-! ### Shapes -/

/-- The **shape** of the played sequence: its name, and the names of the list and of the segment of
each segment, in the order of their numbers. -/
def shape (r : RunResult) : String × List (String × String) :=
  (r.sequenceName, r.ordered.map fun s => (s.listName, s.segmentName))

/-- All names of a shape, in order. -/
def names (r : RunResult) : List String :=
  r.shape.1 :: r.shape.2.flatMap fun pair => [pair.1, pair.2]

/-- The names say what the shape is, as each segment has two. -/
theorem names_eq_iff {r r' : RunResult} : r.names = r'.names ↔ r.shape = r'.shape := by
  -- the names come in pairs, and so a list of pairs can be read off them
  have hpairs : ∀ ps qs : List (String × String),
      (ps.flatMap fun pair => [pair.1, pair.2]) = (qs.flatMap fun pair => [pair.1, pair.2]) →
        ps = qs := by
    intro ps
    induction ps with
    | nil =>
      intro qs h
      cases qs with
      | nil => rfl
      | cons q qs => cases h
    | cons p ps ih =>
      intro qs h
      cases qs with
      | nil => cases h
      | cons q qs =>
        obtain ⟨hfirst, hsecond, hrest⟩ : p.1 = q.1 ∧ p.2 = q.2 ∧ _ := by simpa using h
        rw [Prod.ext hfirst hsecond, ih qs hrest]
  refine ⟨fun h => ?_, fun h => by rw [names, h, names]⟩
  obtain ⟨hname, hnames⟩ := List.cons.inj h
  exact Prod.ext hname (hpairs _ _ hnames)

/-- What is digested is the bytes of the names as one text. -/
theorem fingerprintBytes_eq (r : RunResult) :
    r.fingerprintBytes = (String.join r.names).toUTF8.toList := by
  -- the names of a segment stand together in both orders
  have hsegments : ∀ ss : List SegmentResult,
      (ss.flatMap fun s => s.listName.toUTF8.toList ++ s.segmentName.toUTF8.toList) =
        ((ss.map fun s => (s.listName, s.segmentName)).flatMap fun pair => [pair.1, pair.2]).flatMap
          fun name => name.toUTF8.toList := by
    intro ss
    induction ss with
    | nil => rfl
    | cons s ss ih =>
      rw [List.flatMap_cons, ih, List.map_cons, List.flatMap_cons, List.flatMap_append,
        List.flatMap_cons, List.flatMap_cons, List.flatMap_nil, List.append_nil]
  rw [bytes_join, names, List.flatMap_cons, fingerprintBytes, hsegments]
  rfl

/-- A name that a list of names starts with is what their text starts with; without one, nothing
is. -/
theorem head_prefix_join (names : List String) :
    (names.headD "").toList <+: (String.join names).toList := by
  cases names with
  | nil => exact List.prefix_rfl
  | cons name names =>
    rw [String.join_cons, String.toList_append]
    exact List.prefix_append _ _

/-- When different names make one text, then at the first place where they differ one name goes on
where the other ends. -/
theorem first_difference_of_join {as bs : List String} (hne : as ≠ bs)
    (hjoin : String.join as = String.join bs) :
    ∃ before rest rest', as = before ++ rest ∧ bs = before ++ rest' ∧ rest.head? ≠ rest'.head? ∧
      ((rest.headD "").toList <+: (rest'.headD "").toList ∨
        (rest'.headD "").toList <+: (rest.headD "").toList) := by
  obtain ⟨before, rest, rest', rfl, rfl, hheads⟩ := exists_first_difference hne
  refine ⟨before, rest, rest', rfl, rfl, hheads, ?_⟩
  -- the names before the difference are the same on both sides, so what follows makes one text too
  have hrest : (String.join rest).toList = (String.join rest').toList := by
    have htexts := congrArg String.toList hjoin
    simp only [String.toList_join, List.flatMap_append] at htexts ⊢
    exact List.append_cancel_left htexts
  exact List.prefix_or_prefix_of_prefix (head_prefix_join rest) (hrest ▸ head_prefix_join rest')

/-- **What a fingerprint tells apart.** Two results with different shapes are digested from
different bytes exactly when their names, one directly after the other, are different texts. If the
bytes are the same, then at the first place where the names differ one of the two names goes on
where the other ends (or is all there is). -/
theorem bytes_tell_texts_apart (r r' : RunResult) (h : r.shape ≠ r'.shape) :
    (r.fingerprintBytes ≠ r'.fingerprintBytes ↔ String.join r.names ≠ String.join r'.names) ∧
      (r.fingerprintBytes = r'.fingerprintBytes →
        ∃ before rest rest', r.names = before ++ rest ∧ r'.names = before ++ rest' ∧
          rest.head? ≠ rest'.head? ∧
          ((rest.headD "").toList <+: (rest'.headD "").toList ∨
            (rest'.headD "").toList <+: (rest.headD "").toList)) := by
  have hbytes : r.fingerprintBytes = r'.fingerprintBytes ↔
      String.join r.names = String.join r'.names := by
    rw [fingerprintBytes_eq, fingerprintBytes_eq, bytes_inj]
  refine ⟨not_congr hbytes, fun hsame => ?_⟩
  exact first_difference_of_join (fun hnames => h (names_eq_iff.mp hnames)) (hbytes.mp hsame)

/-- A run of one segment. -/
def single (sequenceName listName segmentName : String) : RunResult where
  runId := "a"
  sequenceName := sequenceName
  startedAt := 0
  duration := 0.0
  success := false
  saveLocation := "out"
  segments := [.notStarted listName segmentName 1 true]

theorem names_single (sequenceName listName segmentName : String) :
    (single sequenceName listName segmentName).names = [sequenceName, listName, segmentName] := by
  simp [names, shape, ordered, single, SegmentResult.notStarted]

/-- A segment that is renamed from `Quit` to `Exit` is seen. -/
theorem renaming_is_seen :
    (single "Smoke" "Main" "Quit").shape ≠ (single "Smoke" "Main" "Exit").shape ∧
      (single "Smoke" "Main" "Quit").fingerprintBytes ≠
        (single "Smoke" "Main" "Exit").fingerprintBytes := by
  have hshape : (single "Smoke" "Main" "Quit").shape ≠ (single "Smoke" "Main" "Exit").shape := by
    rw [Ne, ← names_eq_iff, names_single, names_single]
    decide
  refine ⟨hshape, (bytes_tell_texts_apart _ _ hshape).1.mpr ?_⟩
  rw [names_single, names_single]
  decide

/-- **The fingerprint does not identify the shape.** A segment `1 Start` of a list `Level 1` and a
segment ` Start` of a list `Level 11` make the same bytes. -/
theorem shapes_run_together :
    ¬ ∀ r r' : RunResult, r.shape ≠ r'.shape → r.fingerprintBytes ≠ r'.fingerprintBytes := by
  intro h
  refine h (single "Smoke" "Level 1" "1 Start") (single "Smoke" "Level 11" " Start") ?_ ?_
  · rw [Ne, ← names_eq_iff, names_single, names_single]
    decide
  · rw [fingerprintBytes_eq, fingerprintBytes_eq, names_single, names_single]
    exact congrArg (fun text : String => text.toUTF8.toList) (by decide)

end RunResult

end Playtest
