import Playtest.Proofs.Json.Lines
import Playtest.Proofs.Json.Records
import Playtest.Proofs.Resource.Appending
import Playtest.Proofs.Resource.Kinds
import Playtest.Result.Store

/-!
# Results come back from a file

A file of results has one result on each line, and whatever names and details are in a result, its
line is one line. So results that are put into a file one after the other are read from it in the
same order, behind those that were there before (`RunResult.appended_results_come_back`).

It takes three things: a result comes back from its document (`RunResult.decoder_toValue`), its text
is one line of the file (`Value.records_lined`), and what has been put into a file is read from it
(`Tree.Takes.append`).
-/

namespace Playtest

open Playtest.Json Playtest.Resource

variable {source : Source}

/-! ### Documents -/

theorem Outcome.decoder_name (o : Outcome) : Outcome.decoder source (.str o.name) = .ok o := by
  cases o <;> rfl

/-- The result of a segment is **kept** by documents. -/
def SegmentResult.Kept (r : SegmentResult) : Prop := r.elapsed.isFinite = true

/-- The result of a run is **kept** by documents. -/
structure RunResult.Kept (r : RunResult) : Prop where
  duration : r.duration.isFinite = true
  segments : ∀ s ∈ r.segments, s.Kept

/-- **The result of a segment comes back from its document.** -/
theorem SegmentResult.decoder_toValue {r : SegmentResult} (h : r.Kept) :
    SegmentResult.decoder source (Node.ofValue r.toValue) = .ok r := by
  -- the fields are the same with a detail and without
  have hfields : ∀ {offer : Offer} {i j k l m n o p q : Nat},
      offer.find "list_name" = some (i, .str r.listName) →
      offer.find "segment_name" = some (j, .str r.segmentName) →
      offer.find "segment_number" = some (k, .int (.ofUInt64 r.segmentNumber)) →
      offer.find "outcome" = some (l, .str r.outcome.name) →
      offer.find "required" = some (m, .bool r.isRequired) →
      offer.find "passed" = some (n, .bool r.passed) →
      offer.find "elapsed_s" = some (o, Node.ofValue (.ofFloat r.elapsed)) →
      offer.find "ticks" = some (p, .int (.ofUInt64 r.ticks)) →
      offer.find "validations_timed_out" = some (q, .bool r.validationsTimedOut) →
      (Record.fieldMaybe "detail" .text).read offer = .ok r.detail →
        SegmentResult.record.read offer = .ok r := by
    intro offer i j k l m n o p q hlist hname hnumber houtcome hrequired hpassed helapsed hticks
      hvalidations hdetail
    refine Record.read_seq (Record.read_seq (Record.read_seq (Record.read_seq (Record.read_seq
      (Record.read_seq (Record.read_seq (Record.read_seq (Record.read_seq (Record.read_map ?list)
      ?name) ?number) ?outcome) ?required) ?passed) ?elapsed) ?ticks) hdetail) ?validations
    case list => exact Record.read_named hlist rfl
    case name => exact Record.read_named hname rfl
    case number => exact Record.read_named hnumber (Decoder.count_ofUInt64 _)
    case outcome => exact Record.read_named houtcome r.outcome.decoder_name
    case required => exact Record.read_named hrequired rfl
    case passed => exact Record.read_named hpassed rfl
    case elapsed => exact Record.read_named helapsed (Decoder.float_ofFloat h)
    case ticks => exact Record.read_named hticks (Decoder.uint64_ofUInt64 _)
    case validations => exact Record.read_named hvalidations rfl
  -- a detail that is not there is not written
  obtain ⟨listName, segmentName, number, outcome, isRequired, passed, elapsed, ticks,
      detail, timedOut⟩ := r
  cases detail with
  | none =>
    exact Record.decoder_obj rfl fun _ =>
      hfields rfl rfl rfl rfl rfl rfl rfl rfl rfl (Record.read_absent rfl)
  | some text =>
    have hdetail : (Decoder.text).option source (.str text) = .ok (some text) := rfl
    exact Record.decoder_obj rfl fun _ =>
      hfields rfl rfl rfl rfl rfl rfl rfl rfl rfl (Record.read_named rfl hdetail)

namespace RunResult

variable {r : RunResult} {earlier results : List RunResult} {t : Tree} {path : String}

/-- **The result of a run comes back from its document.** -/
theorem decoder_toValue (h : r.Kept) :
    RunResult.decoder source (Node.ofValue r.toValue) = .ok r := by
  have hsegments : SegmentResult.decoder.list source
      (Node.ofValue (.arr (r.segments.map SegmentResult.toValue))) = .ok r.segments :=
    Decoder.list_ofItems fun s hs => SegmentResult.decoder_toValue (h.segments s hs)
  refine Record.decoder_obj rfl fun _ => ?_
  refine Record.read_seq (Record.read_seq (Record.read_seq (Record.read_seq (Record.read_seq
    (Record.read_seq (Record.read_map ?id) ?name) ?started) ?duration) ?success) ?location)
    ?segments
  case id => exact Record.read_named rfl rfl
  case name => exact Record.read_named rfl rfl
  case started => exact Record.read_named rfl (Decoder.int64_ofInt64 _)
  case duration => exact Record.read_named rfl (Decoder.float_ofFloat h.duration)
  case success => exact Record.read_named rfl rfl
  case location => exact Record.read_named rfl rfl
  case segments => exact Record.read_named rfl hsegments

/-- A result is not nested deep. -/
theorem depth_toValue_le (r : RunResult) : r.toValue.depth ≤ depthLimit := by
  -- only the segments are nested, and each of them is one object of numbers and texts
  have hfloat : ∀ x : Float, (Value.ofFloat x).depth = 0 := by
    intro x
    unfold Value.ofFloat
    split <;> rfl
  have hsegment : ∀ s : SegmentResult, s.toValue.depth = 1 := by
    intro s
    unfold SegmentResult.toValue
    cases s.detail <;> simp [Value.depth, Value.depthFields, hfloat]
  have hsegments : ∀ ss : List SegmentResult,
      Value.depthItems (ss.map SegmentResult.toValue) ≤ 1 := by
    intro ss
    induction ss with
    | nil => exact Nat.zero_le 1
    | cons s ss ih =>
      rw [List.map_cons, Value.depthItems, hsegment]
      exact Nat.max_le.mpr ⟨Nat.le_refl 1, ih⟩
  have hall := hsegments r.segments
  simp only [toValue, Value.depth, Value.depthFields, hfloat]
  have : depthLimit = 127 := rfl
  omega

/-- A result comes back from its text, if its floats read back. -/
theorem ofText_render (h : r.Kept) (hreals : r.toValue.RealsReadBack) :
    decoder.ofText r.render = .ok r := by
  unfold render
  rw [Decoder.ofText_render, Value.reread_eq _ 0 hreals (by have := r.depth_toValue_le; omega)]
  exact decoder_toValue h

/-! ### Lines -/

/-- Results are read from their texts, whatever the lines are numbered. -/
theorem onLines_eq {records : List (Nat × String)}
    (hrecords : records.map (·.2) = results.map render)
    (hread : ∀ r ∈ results, decoder.ofText r.render = .ok r) : onLines records = .ok results := by
  induction results generalizing records with
  | nil =>
    obtain rfl := List.map_eq_nil_iff.mp hrecords
    rfl
  | cons r results ih =>
    -- the first record is the first result, whatever its number
    obtain ⟨⟨number, text⟩, rest, rfl, rfl, hrest⟩ := List.map_eq_cons_iff.mp hrecords
    obtain ⟨hfirst, hothers⟩ := List.forall_mem_cons.mp hread
    unfold onLines
    rw [hfirst, ih hrest hothers]
    rfl

/-- Results come back from their lines. -/
theorem ofLines_join (hread : ∀ r ∈ results, decoder.ofText r.render = .ok r) :
    ofLines (String.join (results.map line)) = .ok results :=
  onLines_eq (Value.records_lined (fun _ : RunResult => ⟨_, rfl⟩) results) hread

/-! ### Files -/

/-- A file that takes text takes results, one after the other. -/
theorem exists_appended (results : List RunResult) {held : String} (h : t.Takes path held) :
    ∃ t', results.foldlM (fun t r => appendTo r t path) t = .ok t' ∧
      t'.Takes path (held ++ String.join (results.map line)) ∧
      (results ≠ [] → t'.readLines path = .ok (held ++ String.join (results.map line), none)) := by
  -- induction over the results, with what the file holds as the invariant
  induction results generalizing t held with
  | nil =>
    refine ⟨t, rfl, ?_, fun hne => absurd rfl hne⟩
    rwa [List.map_nil, String.join_nil, String.append_empty]
  | cons r results ih =>
    obtain ⟨t₁, hfirst, htakes, hread⟩ := h.append r.line
    obtain ⟨t', hrest, htakes', hread'⟩ := ih htakes
    have hjoin : held ++ String.join ((r :: results).map line) =
        held ++ r.line ++ String.join (results.map line) := by
      rw [List.map_cons, String.join_cons, String.append_assoc]
    refine ⟨t', Except.bind_eq_ok_iff.mpr ⟨t₁, hfirst, hrest⟩, hjoin ▸ htakes', fun _ => ?_⟩
    rw [hjoin]
    cases results with
    | nil =>
      cases hrest
      rwa [List.map_nil, String.join_nil, String.append_empty]
    | cons _ _ => exact hread' (List.cons_ne_nil _ _)

/-- **Results come back from a file.** When results are put one after the other into a file that
holds the lines of earlier ones, or into one that is not there yet, then reading the file gives the
earlier results and behind them exactly these. The floats in the results have to be finite and to
read back; their texts may be any. -/
theorem appended_results_come_back
    (hkept : ∀ r ∈ earlier ++ results, r.Kept ∧ r.toValue.RealsReadBack)
    (hpath : namesNoFile path = false)
    (hfile : t.read path = .ok (String.join (earlier.map line)) ∨
      earlier = [] ∧ results ≠ [] ∧ t.read path = .error .notFound ∧
        ∃ place, t.enter (namesBefore path) = .ok place) :
    ∃ t', results.foldlM (fun t r => appendTo r t path) t = .ok t' ∧
      loadAll t' path = .ok (earlier ++ results) := by
  have htakes : t.Takes path (String.join (earlier.map line)) := by
    -- the file is there, or its directory is
    obtain hthere | ⟨rfl, -, hmissing, place, henter⟩ := hfile
    · exact .of_read hpath hthere
    · exact .of_missing hpath henter hmissing
  obtain ⟨t', hall, -, hread⟩ := exists_appended results htakes
  refine ⟨t', hall, ?_⟩
  have hlines : t'.readLines path = .ok (String.join ((earlier ++ results).map line), none) := by
    rw [List.map_append, String.join_append]
    by_cases hresults : results = []
    · subst hresults
      cases hall
      -- without results the file has to be there
      obtain hthere | ⟨-, hne, -⟩ := hfile
      · obtain ⟨place, hlocate, hplace⟩ := Tree.of_read hthere
        rw [List.map_nil, String.join_nil, String.append_empty]
        exact Tree.readLines_of_locate hlocate hplace
      · exact absurd rfl hne
    · exact hread hresults
  have hresults : ofLines (String.join ((earlier ++ results).map line)) =
      .ok (earlier ++ results) :=
    ofLines_join fun r hr => ofText_render (hkept r hr).1 (hkept r hr).2
  unfold loadAll
  rw [hlines]
  dsimp only
  rw [hresults]

/-- A run of one segment, with a line break and quotes in what it says. -/
def noted (runId : String) : RunResult where
  runId := runId
  sequenceName := "Smoke\n"
  startedAt := -1
  duration := 1.5
  success := false
  saveLocation := "out"
  segments :=
    [{ SegmentResult.notStarted "Main" "\r" 1 true with detail := some "gave \x22up\x22\n\n" }]

/-- Its times are finite and read back. -/
theorem noted_kept (runId : String) : (noted runId).Kept ∧ (noted runId).toValue.RealsReadBack := by
  have hfinite : (1.5 : Float).isFinite = true ∧ (0.0 : Float).isFinite = true := by decide
  refine ⟨⟨hfinite.1, List.forall_mem_singleton.mpr hfinite.2⟩, ?_⟩
  have hduration := Value.realsReadBack_ofFloat Resource.Document.readsBack_half
  have helapsed := Value.realsReadBack_ofFloat Resource.Document.readsBack_zero
  simp [toValue, noted, SegmentResult.toValue, SegmentResult.notStarted, Value.RealsReadBack,
    Value.ItemsReadBack, Value.FieldsReadBack, hduration, helapsed]

/-- Two results come back behind one that was in the file. -/
theorem notes_come_back :
    let t : Tree := [(["results.jsonl"], .text (String.join ([noted "a"].map line)))]
    (∀ r ∈ [noted "a"] ++ [noted "b", noted "c"], r.Kept ∧ r.toValue.RealsReadBack) ∧
      namesNoFile "results.jsonl" = false ∧
      ∃ t', [noted "b", noted "c"].foldlM (fun t r => appendTo r t "results.jsonl") t = .ok t' ∧
        loadAll t' "results.jsonl" = .ok [noted "a", noted "b", noted "c"] := by
  intro t
  have hkept : ∀ r ∈ [noted "a"] ++ [noted "b", noted "c"], r.Kept ∧ r.toValue.RealsReadBack := by
    intro r hr
    obtain rfl | rfl | rfl : r = noted "a" ∨ r = noted "b" ∨ r = noted "c" := by simpa using hr
    · exact noted_kept "a"
    · exact noted_kept "b"
    · exact noted_kept "c"
  have hpath : namesNoFile "results.jsonl" = false := by decide
  exact ⟨hkept, hpath, appended_results_come_back hkept hpath (.inl rfl)⟩

end RunResult

end Playtest
