import Playtest.Proofs.Json.Lines
import Playtest.Proofs.Resource.Kinds
import Playtest.Proofs.Scene.WireForm
import Playtest.Recording.Frames

/-!
# Recordings come back, and bad lines are named

A recording is laid out in rows: each is a frame or white space, and ends at a line feed with or
without a carriage return in front, or where the recording does (`Layout`). However frames are laid
out, they are read as these frames in this order (`framesOf_text`): a frame comes back from its
text, which is one line (`Frame.ofText_render`).

A text with a line that is neither blank nor a frame is refused. What is named then is where the
first of these lines stands in the text (`exists_framesOf_eq_error`), blank lines included.
-/

namespace Playtest.Recording

open Playtest.Json Playtest.Scene Playtest.Text

/-! ### Layouts -/

/-- A **row** of a recording: a frame, or white space. -/
inductive Row where
  | frame (f : Frame)
  | blank (cs : List Char) (unbroken : '\n' ∉ cs) (blank : cs.all isBlank = true)

/-- What ends a row. -/
inductive Break where
  | feed
  | returnFeed

/-- A **layout** of frames: rows with the breaks behind them, and a last one without a break. -/
structure Layout where
  rows : List (Row × Break)
  last : Row

/-- The characters of a row. -/
def Row.chars : Row → List Char
  | .frame f => f.toValue.chars
  | .blank cs _ _ => cs

/-- The frame on a row. -/
def Row.frames : Row → List Frame
  | .frame f => [f]
  | .blank _ _ _ => []

/-- The characters of a break. -/
def Break.chars : Break → List Char
  | .feed => ['\n']
  | .returnFeed => ['\r', '\n']

namespace Layout

/-- The characters of rows, and of a last one. -/
def charsOf (rows : List (Row × Break)) (last : Row) : List Char :=
  rows.flatMap (fun row => row.1.chars ++ row.2.chars) ++ last.chars

/-- The text of a layout. -/
def text (l : Layout) : String := String.ofList (charsOf l.rows l.last)

/-- The frames that are laid out. -/
def frames (l : Layout) : List Frame := l.rows.flatMap (·.1.frames) ++ l.last.frames

end Layout

/-! ### Lines of a layout -/

/-- What is read of some lines: those with something on them. -/
def written (lines : List (List Char)) : List (List Char) :=
  lines.filter fun line => !line.all isBlank

/-- A frame is something on a line. -/
theorem written_frame (f : Frame) : written [f.toValue.chars] = [f.toValue.chars] := by
  have hblank : f.toValue.chars.all isBlank = false := Value.chars_obj_not_blank _
  exact List.filter_cons_of_pos (by rw [hblank]; rfl)

/-- White space is nothing. -/
theorem written_blank {cs : List Char} (h : cs.all isBlank = true) : written [cs] = [] :=
  List.filter_cons_of_neg (by rw [h]; exact Bool.false_ne_true)

/-- A row with its break is one line, on which is what is on the row. -/
theorem exists_fileLines_row (row : Row) (b : Break) :
    ∃ line, written [line] = row.frames.map (·.toValue.chars) ∧
      ∀ rest, fileLines (row.chars ++ (b.chars ++ rest)) = line :: fileLines rest := by
  cases row with
  | frame f =>
    have hplain := f.toValue.plain_chars
    have hbreak : '\n' ∉ f.toValue.chars := hplain.not_mem (by decide)
    have hreturn : '\r' ∉ f.toValue.chars := hplain.not_mem (by decide)
    refine ⟨f.toValue.chars, written_frame f, fun rest => ?_⟩
    cases b with
    | feed => exact fileLines_feed hbreak (fun heq => hreturn (List.mem_of_getLast? heq)) rest
    | returnFeed => exact fileLines_returnFeed hbreak rest
  | blank cs hbreak hblank =>
    cases b with
    | returnFeed => exact ⟨cs, written_blank hblank, fileLines_returnFeed hbreak⟩
    | feed =>
      -- a carriage return among the white space may be taken for a part of the break
      by_cases hlast : cs.getLast? = some '\r'
      · obtain ⟨line, rfl⟩ := List.getLast?_eq_some_iff.mp hlast
        have hline : line.all isBlank = true := by
          rw [List.all_append, Bool.and_eq_true] at hblank
          exact hblank.1
        refine ⟨line, written_blank hline, fun rest => ?_⟩
        have hreturn : '\n' ∉ line := fun hmem => hbreak (List.mem_append_left _ hmem)
        rw [← fileLines_returnFeed hreturn rest]
        simp only [Row.chars, Break.chars, List.append_assoc, List.cons_append, List.nil_append]
      · exact ⟨cs, written_blank hblank, fileLines_feed hbreak hlast⟩

/-- The last row is one line without a break. -/
theorem written_fileLines_last (row : Row) :
    written (fileLines row.chars) = row.frames.map (·.toValue.chars) := by
  cases row with
  | frame f =>
    have hbreak : '\n' ∉ f.toValue.chars := f.toValue.plain_chars.not_mem (by decide)
    exact (congrArg written (fileLines_of_unbroken hbreak)).trans (written_frame f)
  | blank cs hbreak hblank =>
    exact (congrArg written (fileLines_of_unbroken hbreak)).trans (written_blank hblank)

/-- **What is on the lines of a layout are its frames**, in their order. -/
theorem written_fileLines (rows : List (Row × Break)) (last : Row) :
    written (fileLines (Layout.charsOf rows last)) =
      (Layout.frames ⟨rows, last⟩).map (·.toValue.chars) := by
  -- induction over the rows, each of which is one line
  induction rows with
  | nil => exact written_fileLines_last last
  | cons entry rows ih =>
    obtain ⟨row, b⟩ := entry
    obtain ⟨line, hline, hlines⟩ := exists_fileLines_row row b
    have hchars : Layout.charsOf ((row, b) :: rows) last =
        row.chars ++ (b.chars ++ Layout.charsOf rows last) := by
      simp only [Layout.charsOf, List.flatMap_cons, List.append_assoc]
    have hframes : Layout.frames ⟨(row, b) :: rows, last⟩ =
        row.frames ++ Layout.frames ⟨rows, last⟩ := by
      simp only [Layout.frames, List.flatMap_cons, List.append_assoc]
    calc written (fileLines (Layout.charsOf ((row, b) :: rows) last))
      _ = written ([line] ++ fileLines (Layout.charsOf rows last)) := by rw [hchars, hlines]; rfl
      _ = written [line] ++ written (fileLines (Layout.charsOf rows last)) := List.filter_append ..
      _ = (Layout.frames ⟨(row, b) :: rows, last⟩).map (·.toValue.chars) := by
          rw [hline, ih, hframes, List.map_append]

/-! ### Reading records -/

/-- Frames are read from their texts, whatever the lines are numbered. -/
theorem framesOn_eq_ok {records : List (Nat × String)} {frames : List Frame}
    (hrecords : records.map (·.2) = frames.map (·.toValue.render))
    (hread : ∀ f ∈ frames, Frame.decoder.ofText f.toValue.render = .ok f) :
      framesOn records = .ok frames := by
  induction frames generalizing records with
  | nil =>
    obtain rfl := List.map_eq_nil_iff.mp hrecords
    rfl
  | cons f frames ih =>
    -- the first record is the first frame, whatever its number
    obtain ⟨⟨number, text⟩, rest, rfl, rfl, hrest⟩ := List.map_eq_cons_iff.mp hrecords
    obtain ⟨hfirst, hothers⟩ := List.forall_mem_cons.mp hread
    unfold framesOn
    rw [hfirst, ih hrest hothers]
    rfl

/-- Reading goes well on all records, or it fails on the first one that is no frame. -/
theorem framesOn_cases (records : List (Nat × String)) :
    ((∃ frames, framesOn records = .ok frames) ∧
      ∀ r ∈ records, ∃ f, Frame.decoder.ofText r.2 = .ok f) ∨
      ∃ before r behind reason, records = before ++ r :: behind ∧
        framesOn records = .error ⟨r.1, reason⟩ ∧
        Frame.decoder.ofText r.2 = .error reason ∧
        ∀ r ∈ before, ∃ f, Frame.decoder.ofText r.2 = .ok f := by
  induction records with
  | nil => exact .inl ⟨⟨[], rfl⟩, List.forall_mem_nil _⟩
  | cons first records ih =>
    obtain ⟨number, line⟩ := first
    cases hfirst : Frame.decoder.ofText line with
    | error reason =>
      have hfails : framesOn ((number, line) :: records) = .error ⟨number, reason⟩ := by
        unfold framesOn
        rw [hfirst]
      exact .inr ⟨[], _, records, reason, rfl, hfails, hfirst, List.forall_mem_nil _⟩
    -- this one is a frame, and so the others decide
    | ok f =>
      have hgoesOn : framesOn ((number, line) :: records) = (framesOn records).map (f :: ·) := by
        conv => lhs; unfold framesOn
        rw [hfirst]
      obtain ⟨⟨frames, hframes⟩, hall⟩ | ⟨before, r, behind, reason, rfl, hfails, hr, hbefore⟩ := ih
      · exact .inl ⟨⟨f :: frames, by rw [hgoesOn, hframes]; rfl⟩,
          List.forall_mem_cons.mpr ⟨⟨f, hfirst⟩, hall⟩⟩
      · refine .inr ⟨(number, line) :: before, r, behind, reason, rfl, ?_, hr,
          List.forall_mem_cons.mpr ⟨⟨f, hfirst⟩, hbefore⟩⟩
        rw [hgoesOn, hfails]
        rfl

/-- The line with this number is **bad** for this reason: there is something on it that is no
frame. -/
def IsBad (text : String) (number : Nat) (reason : DecodeError) : Prop :=
  ∃ line, IsLine text.toList number line ∧ line.all isBlank = false ∧
    Frame.decoder.ofText (String.ofList line) = .error reason

/-- A bad line is one of the records of its text. -/
theorem isBad_iff {text : String} {number : Nat} {reason : DecodeError} :
    IsBad text number reason ↔
      ∃ s, (number, s) ∈ records text ∧ Frame.decoder.ofText s = .error reason := by
  simp only [IsBad, mem_records_iff]
  constructor
  · rintro ⟨line, hline, hblank, hreason⟩
    exact ⟨_, ⟨line, hline, hblank, rfl⟩, hreason⟩
  · rintro ⟨_, ⟨line, hline, hblank, rfl⟩, hreason⟩
    exact ⟨line, hline, hblank, hreason⟩

/-! ### Recordings -/

/-- **Frames come back however they are laid out.** -/
theorem framesOf_text {l : Layout}
    (h : ∀ f ∈ l.frames, f.Kept ∧ f.toValue.RealsReadBack ∧ f.toValue.depth ≤ depthLimit) :
    framesOf l.text = .ok l.frames := by
  have hrecords : (records l.text).map (·.2) = l.frames.map (·.toValue.render) := by
    rw [records_snd, Layout.text, String.toList_ofList]
    exact (congrArg (List.map String.ofList) (written_fileLines l.rows l.last)).trans List.map_map
  exact framesOn_eq_ok hrecords fun f hf => Frame.ofText_render (h f hf).1 (h f hf).2.1 (h f hf).2.2

/-- **The first bad line is the one that is named.** -/
theorem exists_framesOf_eq_error {text : String} (h : ∃ number reason, IsBad text number reason) :
    ∃ b, framesOf text = .error b ∧ IsBad text b.number b.reason ∧
      ∀ number reason, IsBad text number reason → b.number ≤ number := by
  simp only [isBad_iff] at h ⊢
  have hcases := framesOn_cases (records text)
  obtain ⟨-, hall⟩ | ⟨before, r, behind, reason, hrecords, hfails, hr, hbefore⟩ := hcases
  · obtain ⟨number, reason, s, hmem, hbad⟩ := h
    obtain ⟨f, hf⟩ := hall _ hmem
    rw [hf] at hbad
    cases hbad
  · -- what is bad and stands in front of `r` would have been met before it
    have hmem : r ∈ records text := by
      rw [hrecords]
      exact List.mem_append_right _ List.mem_cons_self
    refine ⟨⟨r.1, reason⟩, hfails, ⟨r.2, hmem, hr⟩, fun number reason' ⟨s, hs, hbad⟩ => ?_⟩
    have hordered := pairwise_records text
    rw [hrecords] at hs hordered
    obtain hs | hs := List.mem_append.mp hs
    · obtain ⟨f, hf⟩ := hbefore _ hs
      rw [hf] at hbad
      cases hbad
    · obtain rfl | hs := List.mem_cons.mp hs
      · exact Nat.le_refl _
      · exact Nat.le_of_lt ((List.pairwise_cons.mp (List.pairwise_append.mp hordered).2.1).1 _ hs)

/-- **A recording is read as what is in it.** Frames come back however they are laid out, if they
are nested no deeper than documents may be and their floats read back. A text with a bad line is
refused, and the first of these is named by where it stands. -/
theorem layouts_come_back_and_bad_lines_are_named :
    (∀ l : Layout,
      (∀ f ∈ l.frames, f.Kept ∧ f.toValue.RealsReadBack ∧ f.toValue.depth ≤ depthLimit) →
        framesOf l.text = .ok l.frames) ∧
    ∀ text : String, (∃ number reason, IsBad text number reason) →
      ∃ b, framesOf text = .error b ∧ b.context = "Invalid frame on line " ++ toString b.number ∧
        IsBad text b.number b.reason ∧
          ∀ number reason, IsBad text number reason → b.number ≤ number := by
  refine ⟨fun l h => framesOf_text h, fun text h => ?_⟩
  obtain ⟨b, hfails, hbad, hfirst⟩ := exists_framesOf_eq_error h
  exact ⟨b, hfails, rfl, hbad, hfirst⟩

/-- A frame with something of everything in it. -/
def full : Frame where
  number := 7
  time := some 1.5
  objects := [⟨-1, some 3, some "Main\nCamera", ["Camera"], some [1.5, 0.0],
    [("a", .arr [.obj [("b", .null)]])]⟩]
  screenshot := some ⟨2, 1, [0, 255, 10, 13]⟩

/-- A full frame and an empty one come back from rows with all sorts of breaks, and a bad line is
found behind a frame and a blank line. -/
theorem full_and_empty_come_back :
    let l : Layout :=
      ⟨[(.frame full, .returnFeed), (.blank [' ', '\r'] (by decide) (by decide), .feed)],
        .frame Frame.empty⟩
    let text := "\x7b\x7d\r\n\n nope\n\n"
    ((∀ f ∈ l.frames, f.Kept ∧ f.toValue.RealsReadBack ∧ f.toValue.depth ≤ depthLimit) ∧
      framesOf l.text = .ok [full, Frame.empty]) ∧
    IsBad text 3 (.fault .expectedIdent) ∧
      ∃ b, framesOf text = .error b ∧ b.context = "Invalid frame on line " ++ toString b.number ∧
        IsBad text b.number b.reason ∧
          ∀ number reason, IsBad text number reason → b.number ≤ number := by
  intro l text
  -- the floats of the full frame read back, and the empty frame has none
  have hfull : full.Kept ∧ full.toValue.RealsReadBack := by
    refine ⟨⟨fun t ht => ?_, fun o ho => ?_⟩, ?_⟩
    · cases ht
      decide
    · obtain rfl := List.mem_singleton.mp ho
      exact ⟨fun p hp => by cases hp; decide, rfl⟩
    · have hhalf := Value.realsReadBack_ofFloat Resource.Document.readsBack_half
      have hzero := Value.realsReadBack_ofFloat Resource.Document.readsBack_zero
      simp [full, Frame.toValue, Object.toValue, Vision.Screenshot.toValue, Value.RealsReadBack,
        Value.ItemsReadBack, Value.FieldsReadBack, hhalf, hzero]
  have hempty : Frame.empty.Kept ∧ Frame.empty.toValue.RealsReadBack := by
    refine ⟨⟨fun t ht => (by cases ht), List.forall_mem_nil _⟩, ?_⟩
    simp [Frame.empty, Frame.toValue, Value.RealsReadBack, Value.ItemsReadBack,
      Value.FieldsReadBack]
  have hkept : ∀ f ∈ l.frames, f.Kept ∧ f.toValue.RealsReadBack ∧ f.toValue.depth ≤ depthLimit := by
    intro f hf
    obtain rfl | rfl : f = full ∨ f = Frame.empty := by
      simpa [l, Layout.frames, Row.frames] using hf
    · exact ⟨hfull.1, hfull.2, by decide⟩
    · exact ⟨hempty.1, hempty.2, by decide⟩
  have hbad : IsBad text 3 (.fault .expectedIdent) := by
    refine isBad_iff.mpr ⟨" nope", by decide, rfl⟩
  exact ⟨⟨hkept, layouts_come_back_and_bad_lines_are_named.1 l hkept⟩, hbad,
    layouts_come_back_and_bad_lines_are_named.2 text ⟨_, _, hbad⟩⟩

/-! ### Nesting -/

/-- Arrays within arrays. -/
def nested : Nat → Value
  | 0 => .arr []
  | n + 1 => .arr [nested n]

/-- Arrays have no fields that would have to be sorted. -/
theorem sorted_nested (n : Nat) : (nested n).sorted = nested n := by
  induction n with
  | zero => rfl
  | succ n ih => rw [nested, Value.sorted, Value.sortedItems, ih, Value.sortedItems]

/-- They have no floats, either. -/
theorem realsReadBack_nested (n : Nat) : (nested n).RealsReadBack := by
  induction n with
  | zero => trivial
  | succ n ih => exact ⟨ih, trivial⟩

/-- The array at which the limit is passed is not looked into, and none around it can be read. -/
theorem toValue_reread_nested {n depth : Nat} (h : depthLimit ≤ depth + n) :
    ((nested n).reread depth).toValue = .error .tooDeep := by
  induction n generalizing depth with
  | zero =>
    rw [nested, Value.reread, arrayNode, if_neg (by omega)]
    rfl
  | succ n ih =>
    have hinner : ((nested n).reread (depth + 1)).toValue = .error .tooDeep := ih (by omega)
    rw [nested, Value.reread, arrayNode]
    -- either the limit is passed here, or further inside
    split
    · simp only [Value.rereadItems, Node.toValue, Node.itemsToValues, hinner]
      rfl
    · rfl

/-- A frame on a line of its own. -/
def Layout.alone (f : Frame) : Layout := ⟨[(.frame f, .feed)], .blank [] List.not_mem_nil rfl⟩

/-- The text of such a layout has one record. -/
theorem records_alone (f : Frame) : records (Layout.alone f).text = [(1, f.toValue.render)] := by
  have hplain := f.toValue.plain_chars
  have hreturn : '\r' ∉ f.toValue.chars := hplain.not_mem (by decide)
  have htext : (Layout.alone f).text = String.ofList (f.toValue.chars ++ ['\n']) := by
    simp [Layout.text, Layout.charsOf, Layout.alone, Row.chars, Break.chars]
  -- the break ends the line, and behind it is an empty one
  have hlines : fileLines (Layout.alone f).text.toList = [f.toValue.chars, []] := by
    rw [htext, String.toList_ofList]
    exact fileLines_feed (hplain.not_mem (by decide))
      (fun heq => hreturn (List.mem_of_getLast? heq)) []
  -- the empty line is no record, and the other one is not blank
  have hblank : f.toValue.chars.all isBlank = false := Value.chars_obj_not_blank _
  unfold records
  rw [hlines]
  simp only [List.zipIdx_cons, List.zipIdx_nil, List.filterMap_cons, List.filterMap_nil, hblank]
  rfl

/-- A frame with an attribute that is nested deep. -/
def deep : Frame := ⟨0, none, [⟨1, none, none, [], none, [("a", nested 123)]⟩], none⟩

/-- The deep frame is not read from its own text. -/
theorem ofText_render_deep :
    Frame.decoder.ofText deep.toValue.render = .error (.fault .tooDeep) := by
  -- of what is nested it only matters that it is no value
  obtain ⟨node, hnode⟩ : ∃ node, (nested 123).reread 4 = node := ⟨_, rfl⟩
  have hdeep : node.toValue = .error .tooDeep := hnode ▸ toValue_reread_nested (by decide)
  have hattributes : Decoder.fields .text (.obj [(.ok "a", node)] none) =
      .error (.fault .tooDeep) := by
    simp only [Decoder.fields, Node.fieldsToValues, hdeep]
    rfl
  have hobject : Object.decoder .text (.obj [(.ok "id", .int (.ofInt64 1)),
      (.ok "components", .arr [] none),
      (.ok "attributes", .obj [(.ok "a", node)] none)] none) = .error (.fault .tooDeep) := by
    change Record.settle (Reading.both (.ok _) ((Decoder.fields .text _).mapError fun e => ⟨2, e⟩))
      none = _
    rw [hattributes]
    rfl
  have hreread : deep.toValue.reread 0 = .obj [(.ok "frame", .int (.ofUInt64 0)),
      (.ok "objects", .arr [.obj [(.ok "id", .int (.ofInt64 1)), (.ok "components", .arr [] none),
        (.ok "attributes", .obj [(.ok "a", node)] none)] none] none)] none := by
    rw [← hnode]
    rfl
  rw [Decoder.ofText_render, hreread]
  change Record.settle (Reading.both
    (Reading.both (.ok _)
      ((Decoder.list Object.decoder .text (.arr [_] none)).mapError fun e => ⟨1, e⟩))
    (.ok _)) none = _
  rw [Decoder.list]
  simp only [Decoder.items, hobject]
  rfl

/-- **A frame that is nested too deep is written, and not read back.** There is nothing else in its
recording. -/
theorem deep_frame_does_not_come_back :
    (∀ f ∈ (Layout.alone deep).frames, f.Kept ∧ f.toValue.RealsReadBack) ∧
      framesOf (Layout.alone deep).text = .error ⟨1, .fault .tooDeep⟩ := by
  constructor
  · intro f hf
    obtain rfl := List.mem_singleton.mp hf
    refine ⟨⟨fun t ht => (by cases ht), fun o ho => ?_⟩, ?_⟩
    · obtain rfl := List.mem_singleton.mp ho
      -- the only object has no texts, and its data is in order
      refine ⟨fun p hp => (by cases hp), ?_⟩
      rw [Value.sorted, Value.sortedFields, sorted_nested]
      rfl
    · simp [deep, Frame.toValue, Object.toValue, Value.RealsReadBack, Value.ItemsReadBack,
        Value.FieldsReadBack, realsReadBack_nested]
  · rw [framesOf, records_alone, framesOn, ofText_render_deep]

end Playtest.Recording
