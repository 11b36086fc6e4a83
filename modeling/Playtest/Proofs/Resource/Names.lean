import Playtest.Proofs.Resource.Entries

/-!
# Names of segments

A segment need not have a name where it is written. In a list it is given one then, for its position
(`SegmentList.getElem?_nameFrom`), and so no segment of such a list stays without
(`SegmentList.isUnnamed_nameAt`). A segment that was written alone is made a list of its own, and
nobody looks at its name.

For what is loaded, this is said about the documents as they are written (`Document.asWritten?`),
before any name is given: those that a path plays (`Loader.Plays`) and the lists of the playlist
belong together one by one.
-/

namespace Playtest

open Playtest.Json

namespace SegmentList

variable {list : String} {position : Nat} {s : Segment}

/-- What a segment is called in a list. -/
def nameAt (list : String) (position : Nat) (s : Segment) : Segment :=
  if s.isUnnamed then { s with name := segmentName list position } else s

/-- The name for a position is not blank, whatever the list is called. -/
theorem allBlank_segmentName (list : String) (position : Nat) :
    Text.allBlank (segmentName list position) = false := by
  refine List.all_eq_false.mpr ⟨'#', ?_, by decide⟩
  have heq : segmentName list position = list ++ " - Segment #" ++ toString position := rfl
  rw [heq, String.toList_append, String.toList_append]
  exact List.mem_append_left _ (List.mem_append_right _ (by decide))

/-- **In a list, no segment is without a name.** -/
theorem isUnnamed_nameAt (list : String) (position : Nat) (s : Segment) :
    (nameAt list position s).isUnnamed = false := by
  unfold nameAt
  cases h : s.isUnnamed with
  | true =>
    rw [if_pos rfl]
    exact allBlank_segmentName list position
  | false =>
    rw [if_neg Bool.false_ne_true]
    exact h

/-- Naming segments loses none. -/
theorem length_nameFrom (list : String) (position : Nat) (ss : List Segment) :
    (nameFrom list position ss).length = ss.length := by
  induction ss generalizing position with
  | nil => rfl
  | cons s ss ih => exact congrArg Nat.succ (ih (position + 1))

/-- Each segment is named for its own position. -/
theorem getElem?_nameFrom (list : String) (position : Nat) (ss : List Segment) (n : Nat) :
    (nameFrom list position ss)[n]? = ss[n]?.map (nameAt list (position + n)) := by
  induction ss generalizing position n with
  | nil => rfl
  | cons s ss ih =>
    cases n with
    | zero => rfl
    | succ n =>
      rw [nameFrom, List.getElem?_cons_succ, List.getElem?_cons_succ, ih,
        Nat.add_right_comm, Nat.add_assoc]

end SegmentList

namespace Resource

namespace Document

variable {json : String} {d w : Document} {list : SegmentList} {lists : List SegmentList}
  {s : Segment} {written : List Document}

/-- The document that is **written** in a text, if there is one. Its segments are called what they
are called there. -/
def asWritten? (json : String) : Option Document :=
  match Sequence.decoder.ofText json with
  | .ok s => some (.sequence s)
  | .error _ =>
      match SegmentList.decoder.ofText json with
      | .ok l => some (.list l)
      | .error _ => (Segment.decoder.ofText json).toOption.map .segment

/-- A document is read as it is written, with names. -/
theorem ofText_eq_ok_iff :
    ofText json = .ok d ↔ ∃ w, asWritten? json = some w ∧ d = w.withNames := by
  unfold ofText asWritten?
  -- in the order in which the kinds are tried
  cases Sequence.decoder.ofText json with
  | ok q => simp [withNames, eq_comm]
  | error _ =>
    cases SegmentList.decoder.ofText json with
    | ok l => simp [withNames, eq_comm]
    | error _ =>
      cases Segment.decoder.ofText json with
      | ok s => simp [withNames, Except.toOption, eq_comm]
      | error _ => simp [Except.toOption]

/-- What a written document is **listed** as in a playlist. The segments of a list are named, for
their positions; a segment that was written alone is as it was. -/
inductive Listed : Document → SegmentList → Prop
  | list {c list : SegmentList} (hname : list.name = c.name)
      (hlength : list.segments.length = c.segments.length)
      (hsegments : ∀ n s, c.segments[n]? = some s →
        list.segments[n]? = some (SegmentList.nameAt c.name (n + 1) s)) :
      Listed (.list c) list
  | segment {s : Segment} {list : SegmentList} (hname : list.name = s.name)
      (hsegments : list.segments = [s]) : Listed (.segment s) list

/-- **What a document is played as is what it is listed as.** -/
theorem listed_of_asList? (h : w.withNames.asList? = some list) : w.Listed list := by
  cases w with
  | sequence q => cases h
  | list c =>
    obtain rfl : c.named = list := Option.some.inj h
    refine .list rfl (SegmentList.length_nameFrom _ _ _) fun n s hs => ?_
    refine (SegmentList.getElem?_nameFrom c.name 1 c.segments n).trans ?_
    rw [hs, Nat.add_comm]
    rfl
  | segment s =>
    obtain rfl : SegmentList.ofSegment s = list := Option.some.inj h
    exact .segment rfl rfl

/-- **A segment without a name is listed just if it was written alone.** -/
theorem Listed.mem_segments_iff (h : w.Listed list) (hs : s.isUnnamed = true) :
    s ∈ list.segments ↔ w = .segment s := by
  cases h with
  | list _ hlength hsegments =>
    -- what stands at a position of a list was named for it
    refine iff_of_false (fun hmem => ?_) (fun heq => by cases heq)
    obtain ⟨n, hn, rfl⟩ := List.mem_iff_getElem.mp hmem
    have hat := hsegments n _ (List.getElem?_eq_getElem (hlength ▸ hn))
    rw [List.getElem?_eq_getElem hn] at hat
    rw [Option.some.inj hat, SegmentList.isUnnamed_nameAt] at hs
    cases hs
  | segment _ hsegments => rw [hsegments, List.mem_singleton, Document.segment.injEq, eq_comm]

/-- So it is with several documents, one by one. -/
theorem exists_mem_segments_iff (h : List.Forall₂ Listed written lists) (hs : s.isUnnamed = true) :
    (∃ list ∈ lists, s ∈ list.segments) ↔ .segment s ∈ written := by
  induction h with
  | nil => simp
  | cons hfirst _ ih =>
    rw [List.exists_mem_cons_iff, ih, List.mem_cons, hfirst.mem_segments_iff hs, eq_comm]

end Document

open Document

namespace Loader

variable {l : Loader} {path : String} {d w : Document} {e : Entry} {es : List Entry}
  {list : SegmentList} {lists : List SegmentList} {p : Playlist}

/-- The file that a path means **holds** a document, as it is written there. -/
def Holds (l : Loader) (path : String) (w : Document) : Prop :=
  ∃ file json, l.file? path = some file ∧ l.tree.read file = .ok json ∧
    Document.asWritten? json = some w

/-- The document that an entry **means**, as it is written there or in a file. -/
inductive Means (l : Loader) : Entry → Document → Prop
  | carried {e : Entry} {w : Document} (hw : e.carried? = some w) : l.Means e w
  | found {kind : Option EntryKind} {path : String} {w : Document} (hw : l.Holds path w) :
      l.Means (.reference kind path) w

/-- The documents that a path **plays**: those that the entries of a sequence mean, or the one in
the file. -/
inductive Plays (l : Loader) (path : String) : List Document → Prop
  | sequence {q : Sequence} {written : List Document} (hq : l.Holds path (.sequence q))
      (hentries : List.Forall₂ l.Means q.entries written) : l.Plays path written
  | alone {w : Document} (hw : l.Holds path w) (hkind : w.entryKind? ≠ none) : l.Plays path [w]

/-- What is loaded is held by a file, and read with names. -/
theorem holds_of_document (h : l.document path = .ok d) :
    ∃ w, l.Holds path w ∧ d = w.withNames := by
  obtain ⟨file, hfile, hload⟩ := document_eq_ok_iff.mp h
  obtain ⟨json, hread, htext, -⟩ := ofFile_eq_ok_iff.mp hload
  obtain ⟨w, hw, hd⟩ := Document.ofText_eq_ok_iff.mp htext
  exact ⟨w, ⟨file, json, hfile, hread, hw⟩, hd⟩

/-- What an entry stands for is what the document is listed as that it means. -/
theorem Stands.exists_means (h : l.Stands e list) : ∃ w, l.Means e w ∧ w.Listed list := by
  cases h with
  | carried hd _ hlist => exact ⟨_, .carried hd, listed_of_asList? hlist⟩
  | found hd _ hlist =>
    obtain ⟨w, hw, rfl⟩ := holds_of_document hd
    exact ⟨w, .found hw, listed_of_asList? hlist⟩

/-- So it is with the entries of a sequence, one by one. -/
theorem exists_forall₂_means (h : List.Forall₂ l.Stands es lists) :
    ∃ written, List.Forall₂ l.Means es written ∧ List.Forall₂ Document.Listed written lists := by
  induction h with
  | nil => exact ⟨[], .nil, .nil⟩
  | cons hfirst _ ih =>
    obtain ⟨w, hmeans, hlisted⟩ := hfirst.exists_means
    obtain ⟨written, hmeant, hlists⟩ := ih
    exact ⟨w :: written, .cons hmeans hmeant, .cons hlisted hlists⟩

/-- **What a path plays is listed in the playlist**, one document after the other. -/
theorem exists_plays (h : l.playlist path = .ok p) :
    ∃ written, l.Plays path written ∧ List.Forall₂ Document.Listed written p.lists := by
  obtain ⟨d, hd, hp⟩ := Except.bind_eq_ok_iff.mp h
  obtain ⟨w, hw, rfl⟩ := holds_of_document hd
  -- a sequence plays what its entries mean, and anything else plays itself
  cases w with
  | sequence q =>
    obtain ⟨-, hstands⟩ := resolve_eq_ok_iff.mp (Except.mapError_eq_ok_iff.mp hp)
    obtain ⟨written, hmeans, hlisted⟩ := exists_forall₂_means hstands
    exact ⟨written, .sequence hw hmeans, hlisted⟩
  | list c =>
    obtain rfl : Playlist.ofList c.named = p := Except.ok.inj hp
    exact ⟨[.list c], .alone hw (Option.some_ne_none _), .cons (listed_of_asList? rfl) .nil⟩
  | segment s =>
    obtain rfl : Playlist.ofSegment s = p := Except.ok.inj hp
    exact ⟨[.segment s], .alone hw (Option.some_ne_none _), .cons (listed_of_asList? rfl) .nil⟩

/-- **Which segments have names in what is loaded.** The lists of a playlist are those of the
documents that its path plays. Each segment of a list has a name there, its own or the one for its
position. A segment that was written alone keeps what it is called, and so a segment without a name
is in the playlist just if it was written alone. -/
theorem segments_are_named (l : Loader) (path : String) (p : Playlist)
    (h : l.playlist path = .ok p) :
    ∃ written, l.Plays path written ∧ List.Forall₂ Document.Listed written p.lists ∧
      ∀ s : Segment, s.isUnnamed = true →
        ((∃ list ∈ p.lists, s ∈ list.segments) ↔ .segment s ∈ written) := by
  obtain ⟨written, hplays, hlisted⟩ := exists_plays h
  exact ⟨written, hplays, hlisted, fun s hs => exists_mem_segments_iff hlisted hs⟩

/-- A library with a list of two segments, of which one has a name, and a segment without a name. -/
def gallery : Loader where
  root := "res"
  tree :=
    [(["res", "tour.json"],
        .text ("\x7b\"name\":\"Tour\",\"segments\":[\x7b\"endCriteria\":[]\x7d,"
          ++ "\x7b\"name\":\"Exit\",\"endCriteria\":[]\x7d]\x7d")),
      (["res", "bare.json"], .text "\x7b\"endCriteria\":[]\x7d")]

/-- The segments of the tour have names. -/
theorem tour_segments_are_named :
    ∃ p written, gallery.playlist "tour" = .ok p ∧
      p.lists.map (fun list => list.segments.map Segment.name) = [["Tour - Segment #1", "Exit"]] ∧
      gallery.Plays "tour" written ∧ List.Forall₂ Document.Listed written p.lists := by
  have hnames : ((gallery.playlist "tour").toOption.map fun p =>
      p.lists.map fun list => list.segments.map Segment.name) =
        some [["Tour - Segment #1", "Exit"]] := by
    decide +kernel
  cases hp : gallery.playlist "tour" with
  | error e =>
    rw [hp] at hnames
    cases hnames
  -- the names were computed, so there is a playlist
  | ok p =>
    rw [hp] at hnames
    obtain ⟨written, hplays, hlisted, -⟩ := segments_are_named gallery "tour" p hp
    exact ⟨p, written, rfl, Option.some.inj hnames, hplays, hlisted⟩

/-- A segment without a name that is all there is in a file stays without. -/
theorem bare_segment_is_unnamed :
    ¬ ∀ (l : Loader) (path : String) (p : Playlist), l.playlist path = .ok p →
      ∀ list ∈ p.lists, ∀ s ∈ list.segments, s.isUnnamed = false := by
  intro hall
  have hnames : ((gallery.playlist "bare").toOption.map fun p =>
      p.lists.all fun list => list.segments.all fun s => !s.isUnnamed) = some false := by
    decide +kernel
  cases hp : gallery.playlist "bare" with
  | error e =>
    rw [hp] at hnames
    cases hnames
  | ok p =>
    rw [hp] at hnames
    -- the computation finds a list with an unnamed segment in it
    obtain ⟨list, hlist, hsegments⟩ := List.all_eq_false.mp (Option.some.inj hnames)
    refine hsegments (List.all_eq_true.mpr fun s hs => ?_)
    rw [hall gallery "bare" p hp list hlist s hs]
    rfl

end Loader

end Resource

end Playtest
