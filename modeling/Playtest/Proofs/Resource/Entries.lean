import Playtest.Proofs.Resource.Kinds
import Playtest.Proofs.Resource.Versions

/-!
# What the entries of a sequence stand for

An entry carries a list or a segment, or it points at a document that is one. A sequence is resolved
to the lists that its entries stand for, and to nothing if one of them stands for none
(`Loader.Stands`).

A document that is carried and one that is pointed at go different ways. The one is looked at for
its versions with all others before anything is loaded, and its segments are named afterwards. The
other is read from its text and told from other kinds of documents, its segments are named, and then
it is looked at for its versions. Both ways lead to the same list, or both end at the versions
(`Loader.entries_resolve_alike`), if the floats in the document read back.
-/

namespace Playtest

open Playtest.Json

/-- Names change no version. -/
theorem SegmentList.effectiveVersion_named (l : SegmentList) :
    l.named.effectiveVersion = l.effectiveVersion := by
  -- naming goes from segment to segment, with the position as it grows
  have hsegments : ∀ (ss : List Segment) (position : Nat),
      (nameFrom l.name position ss).map Segment.effectiveVersion =
        ss.map Segment.effectiveVersion := by
    intro ss
    induction ss with
    | nil =>
      intro position
      rfl
    | cons s ss ih =>
      intro position
      rw [nameFrom, List.map_cons, List.map_cons, ih]
      split <;> rfl
  exact congrArg (Version.highest l.apiVersion) (hsegments l.segments 1)

/-- The document that an entry **carries**. -/
def Entry.carried? : Entry → Option Resource.Document
  | .reference _ _ => none
  | .list l => some (.list l)
  | .segment s => some (.segment s)

namespace Resource

namespace Document

variable {d : Document} {kind : Option EntryKind} {list : SegmentList}

/-- What an entry calls a document. It calls a sequence nothing. -/
def entryKind? : Document → Option EntryKind
  | .sequence _ => none
  | .list _ => some .segmentList
  | .segment _ => some .segment

/-- A document **fits** where one of a kind is expected, or one of either kind. -/
def Fits (d : Document) (kind : Option EntryKind) : Prop :=
  ∃ k, d.entryKind? = some k ∧ (kind = none ∨ kind = some k)

/-- The list that a document is played as in a sequence. -/
def asList? : Document → Option SegmentList
  | .sequence _ => none
  | .list l => some l
  | .segment s => some (.ofSegment s)

/-- An entry is too new if the document that it carries is. -/
theorem entryTooNew?_eq (e : Entry) : entryTooNew? e = e.carried?.bind unsupported? := by
  cases e <;> rfl

/-- What an entry carries is no sequence. -/
theorem entryKind?_of_carried {e : Entry} (h : e.carried? = some d) :
    ∃ k, d.entryKind? = some k := by
  cases e with
  | reference kind path => cases h
  | list l => cases h; exact ⟨_, rfl⟩
  | segment s => cases h; exact ⟨_, rfl⟩

/-- Naming its segments makes a document no newer. -/
theorem unsupported?_withNames (d : Document) : d.withNames.unsupported? = d.unsupported? := by
  cases d with
  | sequence s => rfl
  | list l => exact congrArg (tooNew? _) l.effectiveVersion_named
  | segment s => rfl

/-- Naming its segments does not change what a document is called. -/
theorem entryKind?_withNames (d : Document) : d.withNames.entryKind? = d.entryKind? := by
  cases d <;> rfl

/-- What an entry can call is played as a list. -/
theorem exists_asList? {k : EntryKind} (h : d.entryKind? = some k) :
    ∃ list, d.asList? = some list := by
  cases d with
  | sequence s => cases h
  | list l => exact ⟨_, rfl⟩
  | segment s => exact ⟨_, rfl⟩

/-- A list or a segment comes back from its text, with names, if its floats do. -/
theorem ofText_render {k : EntryKind} (hkind : d.entryKind? = some k) (hkept : d.Kept)
    (hdepth : d.toValue.depth ≤ depthLimit) (hreals : d.toValue.RealsReadBack) :
    ofText d.toValue.render = .ok d.withNames := by
  have hnode : d.toValue.reread 0 = Node.ofValue d.toValue := Value.reread_eq _ 0 hreals (by omega)
  cases d with
  -- a sequence is no kind of entry
  | sequence s => cases hkind
  | list l =>
    -- what was written as a list is not taken for a sequence
    refine ofText_list (list_not_sequence l) ?_
    rw [Decoder.ofText_render]
    exact hnode ▸ SegmentList.decoder_toValue hkept
  | segment s =>
    -- nor is a segment taken for one of the others
    refine ofText_segment (segment_not_sequence s) (segment_not_list s) ?_
    rw [Decoder.ofText_render]
    exact hnode ▸ Segment.decoder_toValue hkept

end Document

open Document

namespace Loader

variable {l : Loader} {e : Entry} {es : List Entry} {d : Document} {kind : Option EntryKind}
  {path file : String} {list : SegmentList} {lists : List SegmentList} {position : Nat}

/-! ### Entries -/

/-- The list that an entry **stands for**. The segments of a list that is carried still have to be
named. -/
inductive Stands (l : Loader) : Entry → SegmentList → Prop
  | carried {e : Entry} {d : Document} {list : SegmentList} (hd : e.carried? = some d)
      (hold : d.unsupported? = none) (hlist : d.withNames.asList? = some list) : l.Stands e list
  | found {kind : Option EntryKind} {path : String} {d : Document} {list : SegmentList}
      (hd : l.document path = .ok d) (hfits : d.Fits kind) (hlist : d.asList? = some list) :
      l.Stands (.reference kind path) list

/-- What is loaded for an entry is the list of a document that fits. -/
theorem listOf_eq_ok_iff : listOf kind d = .ok list ↔ d.Fits kind ∧ d.asList? = some list := by
  unfold Fits
  -- each kind of document, where either kind is expected or one of the two
  cases d <;> rcases kind with _ | _ | _ <;> simp [listOf, asList?, entryKind?]

/-- An entry stands for a list if it is not too new and the list is what is loaded for it, wherever
in a sequence it is. -/
theorem stands_iff (position : Nat) :
    l.Stands e list ↔ entryTooNew? e = none ∧ l.entryList position e = .ok list := by
  constructor
  · -- an entry that is carried was looked at before, and one that is found when it was loaded
    rintro (⟨hd, hold, hlist⟩ | ⟨hd, hfits, hlist⟩)
    · rw [entryTooNew?_eq, hd]
      refine ⟨hold, ?_⟩
      cases e with
      | reference kind path => cases hd
      | list c =>
        cases hd
        exact congrArg Except.ok (Option.some.inj hlist)
      | segment s =>
        cases hd
        exact congrArg Except.ok (Option.some.inj hlist)
    · refine ⟨rfl, ?_⟩
      have hload : (l.document _).bind (listOf _) = .ok list :=
        Except.bind_eq_ok_iff.mpr ⟨_, hd, listOf_eq_ok_iff.mpr ⟨hfits, hlist⟩⟩
      dsimp only [entryList]
      rw [hload]
  · rintro ⟨hold, h⟩
    cases e with
    | list c =>
      cases h
      exact .carried rfl hold rfl
    | segment s =>
      cases h
      exact .carried rfl hold rfl
    | reference kind path =>
      dsimp only [entryList] at h
      split at h
      · next found hload =>
        cases h
        obtain ⟨d, hd, hlist⟩ := Except.bind_eq_ok_iff.mp hload
        obtain ⟨hfits, hlist⟩ := listOf_eq_ok_iff.mp hlist
        exact .found hd hfits hlist
      · cases h

/-! ### Sequences -/

/-- One list after the other stands for one entry after the other. -/
theorem forall₂_stands_iff :
    List.Forall₂ l.Stands es lists ↔
      (∀ e ∈ es, entryTooNew? e = none) ∧ l.entryLists position es = .ok lists := by
  -- induction over the entries, which are loaded at one position after the other
  induction es generalizing position lists with
  | nil =>
    rw [List.forall₂_nil_left_iff]
    constructor
    · rintro rfl
      exact ⟨List.forall_mem_nil _, rfl⟩
    · rintro ⟨-, h⟩
      exact (Except.ok.inj h).symm
  | cons e es ih =>
    rw [List.forall_mem_cons]
    constructor
    · intro h
      obtain ⟨list, rest, hlist, hrest, rfl⟩ := List.forall₂_cons_left_iff.mp h
      obtain ⟨hold, hfirst⟩ := (stands_iff position).mp hlist
      obtain ⟨holds, hothers⟩ :
          (∀ e ∈ es, entryTooNew? e = none) ∧ l.entryLists (position + 1) es = .ok rest :=
        ih.mp hrest
      refine ⟨⟨hold, holds⟩, Except.bind_eq_ok_iff.mpr ⟨list, hfirst, ?_⟩⟩
      exact Except.bind_eq_ok_iff.mpr ⟨rest, hothers, rfl⟩
    · rintro ⟨⟨hold, holds⟩, h⟩
      obtain ⟨list, hfirst, h⟩ := Except.bind_eq_ok_iff.mp h
      obtain ⟨rest, hothers, h⟩ := Except.bind_eq_ok_iff.mp h
      obtain rfl := Except.ok.inj h
      exact .cons ((stands_iff position).mpr ⟨hold, hfirst⟩) (ih.mpr ⟨holds, hothers⟩)

/-- **A sequence is resolved to what its entries stand for.** -/
theorem resolve_eq_ok_iff {s : Sequence} {p : Playlist} :
    l.resolve s = .ok p ↔ p.name = s.name ∧ List.Forall₂ l.Stands s.entries p.lists := by
  rw [forall₂_stands_iff]
  unfold resolve
  constructor
  · intro h
    split at h
    · cases h
    · next hnone =>
      obtain ⟨lists, hlists, rfl⟩ := Except.map_eq_ok_iff.mp h
      exact ⟨rfl, List.findSome?_eq_none_iff.mp hnone, hlists⟩
  · rintro ⟨hname, holds, hlists⟩
    -- the first entry that is too new would stop the sequence
    have hnone : (Document.sequence s).unsupported? = none := List.findSome?_eq_none_iff.mpr holds
    rw [hnone]
    exact Except.map_eq_ok_iff.mpr ⟨p.lists, hlists, by rw [← hname]⟩

/-- An entry gives way to one that stands for the same, wherever it is. -/
theorem forall₂_stands_congr {before after : List Entry} {e' : Entry}
    (h : ∀ list, l.Stands e list ↔ l.Stands e' list) :
    List.Forall₂ l.Stands (before ++ e :: after) lists ↔
      List.Forall₂ l.Stands (before ++ e' :: after) lists := by
  induction before generalizing lists with
  | nil => simp only [List.nil_append, List.forall₂_cons_left_iff, h]
  | cons first before ih => simp only [List.cons_append, List.forall₂_cons_left_iff, ih]

/-- Some lists stand for entries just if each entry stands for one. -/
theorem exists_forall₂_stands_iff :
    (∃ lists, List.Forall₂ l.Stands es lists) ↔ ∀ e ∈ es, ∃ list, l.Stands e list := by
  induction es with
  | nil => exact ⟨fun _ => List.forall_mem_nil _, fun _ => ⟨[], .nil⟩⟩
  | cons e es ih =>
    rw [List.forall_mem_cons, ← ih]
    constructor
    · rintro ⟨lists, h⟩
      obtain ⟨list, rest, hlist, hrest, -⟩ := List.forall₂_cons_left_iff.mp h
      exact ⟨⟨list, hlist⟩, rest, hrest⟩
    · rintro ⟨⟨list, hlist⟩, rest, hrest⟩
      exact ⟨list :: rest, .cons hlist hrest⟩

/-- A sequence is not resolved just if one of its entries stands for nothing. -/
theorem resolve_error_iff {s : Sequence} :
    (∃ error, l.resolve s = .error error) ↔ ∃ e ∈ s.entries, ∀ list, ¬ l.Stands e list := by
  have hok : (∃ p, l.resolve s = .ok p) ↔ ∀ e ∈ s.entries, ∃ list, l.Stands e list := by
    rw [← exists_forall₂_stands_iff]
    constructor
    · rintro ⟨p, hp⟩
      exact ⟨p.lists, (resolve_eq_ok_iff.mp hp).2⟩
    · rintro ⟨lists, hlists⟩
      exact ⟨⟨s.name, lists⟩, resolve_eq_ok_iff.mpr ⟨rfl, hlists⟩⟩
  constructor
  · rintro ⟨error, herror⟩
    -- otherwise every entry would stand for something, and the sequence would be resolved
    by_contra hall
    push Not at hall
    obtain ⟨p, hp⟩ := hok.mpr hall
    rw [herror] at hp
    cases hp
  · rintro ⟨e, he, hnone⟩
    cases hresolve : l.resolve s with
    | error error => exact ⟨error, rfl⟩
    | ok p =>
      obtain ⟨list, hlist⟩ := hok.mp ⟨p, hresolve⟩ e he
      exact absurd hlist (hnone list)

/-! ### Documents in files -/

/-- What a text is read as is loaded from its file, unless it is too new. -/
theorem document_of_text {text : String} (hfile : l.file? path = some file)
    (hread : l.tree.read file = .ok text) (htext : Document.ofText text = .ok d) : l.document path =
      match d.unsupported? with
      | some reason => .error (.unsupported (some file) reason)
      | none => .ok d := by
  cases hold : d.unsupported? with
  | none => simp only [Loader.document, ofFile, hfile, hread, htext, hold]
  | some reason => simp only [Loader.document, ofFile, hfile, hread, htext, hold]

/-- A document is **stored** in the file that a path means: its text is in there, and reading the
text gives it back. -/
structure Stores (l : Loader) (path file : String) (d : Document) : Prop where
  path : l.file? path = some file
  text : l.tree.read file = .ok d.toValue.render
  kept : d.Kept
  depth : d.toValue.depth ≤ depthLimit
  reals : d.toValue.RealsReadBack

section Files

variable (hcarried : e.carried? = some d) (hstored : l.Stores path file d)

include hcarried hstored

/-- A document in a file is loaded with names, unless it is too new. -/
theorem document_eq : l.document path =
    match d.unsupported? with
    | some reason => .error (.unsupported (some file) reason)
    | none => .ok d.withNames := by
  obtain ⟨k, hk⟩ := entryKind?_of_carried hcarried
  have htext := ofText_render hk hstored.kept hstored.depth hstored.reals
  rw [document_of_text hstored.path hstored.text htext, unsupported?_withNames]

variable (hkind : kind = none ∨ kind = d.entryKind?)

include hkind

/-- An entry that carries a document and one that points at it stand for the same. -/
theorem stands_reference_iff : l.Stands (.reference kind path) list ↔ l.Stands e list := by
  have hload := document_eq hcarried hstored
  obtain ⟨k, hk⟩ := entryKind?_of_carried hcarried
  constructor
  · -- what is pointed at was loaded, and so it is not too new
    rintro (⟨hd, -, -⟩ | ⟨hd, -, hlist⟩)
    · cases hd
    · cases hold : d.unsupported? with
      | some reason =>
        rw [hold] at hload
        rw [hload] at hd
        cases hd
      | none =>
        rw [hold] at hload
        rw [hload] at hd
        cases hd
        exact .carried hcarried hold hlist
  · rintro (⟨hd, hold, hlist⟩ | ⟨hd, -, -⟩)
    · rw [hcarried] at hd
      cases hd
      rw [hold] at hload
      refine .found hload ⟨k, (entryKind?_withNames d).trans hk, ?_⟩ hlist
      exact hk ▸ hkind
    · cases hcarried

/-- Alone in a sequence, such an entry makes one list, or the sequence is refused for a version. -/
theorem resolve_single (name : String) :
    (∃ list, l.resolve (.of name [e]) = .ok ⟨name, [list]⟩ ∧
        l.resolve (.of name [.reference kind path]) = .ok ⟨name, [list]⟩) ∨
      ∃ reason, l.resolve (.of name [e]) = .error (.unsupported none reason) ∧
        l.resolve (.of name [.reference kind path]) =
          .error (.inEntry 1 path (.unsupported (some file) reason)) := by
  cases hold : d.unsupported? with
  | none =>
    obtain ⟨k, hk⟩ := entryKind?_of_carried hcarried
    obtain ⟨list, hlist⟩ := exists_asList? ((entryKind?_withNames d).trans hk)
    have hstands : l.Stands e list := .carried hcarried hold hlist
    refine .inl ⟨list, resolve_eq_ok_iff.mpr ⟨rfl, .cons hstands .nil⟩,
      resolve_eq_ok_iff.mpr ⟨rfl, .cons ?_ .nil⟩⟩
    exact (stands_reference_iff hcarried hstored hkind).mpr hstands
  | some reason =>
    -- the entry that points somewhere is not too new itself, what it points at is
    have hcarrying : (Document.sequence (.of name [e])).unsupported? = some reason := by
      change [e].findSome? entryTooNew? = _
      rw [List.findSome?_cons, entryTooNew?_eq, hcarried, Option.bind_some, hold]
    have hload := document_eq hcarried hstored
    rw [hold] at hload
    refine .inr ⟨reason, ?_, ?_⟩
    · unfold resolve
      rw [hcarrying]
    · have hentry : l.entryList 1 (.reference kind path) =
          .error (.inEntry 1 path (.unsupported (some file) reason)) := by
        dsimp only [entryList]
        rw [hload]
        rfl
      change (l.entryLists 1 [.reference kind path]).map _ = _
      unfold entryLists
      rw [hentry]
      rfl

end Files

/-- **Entries that carry a document and entries that point at it resolve alike.** A sequence is
resolved to the lists that its entries stand for, one for each, in their order, and it is not
resolved just if one of them stands for nothing. An entry that carries a list or a segment and one
that points at a file with its text, naming its kind or none, can take each other's place in any
sequence, if the floats in the document read back; alone they make the same list, or are both
refused for the same version. An entry that points at a sequence, or at a document of another kind
than it names, resolves to nothing in any sequence. -/
theorem entries_resolve_alike (l : Loader) :
    (∀ (s : Sequence) (p : Playlist),
      l.resolve s = .ok p ↔ p.name = s.name ∧ List.Forall₂ l.Stands s.entries p.lists) ∧
    (∀ s : Sequence, (∃ error, l.resolve s = .error error) ↔
      ∃ e ∈ s.entries, ∀ list, ¬ l.Stands e list) ∧
    (∀ (e : Entry) (d : Document) (kind : Option EntryKind) (path file : String),
      e.carried? = some d → l.Stores path file d → (kind = none ∨ kind = d.entryKind?) →
        (∀ name description before after p,
          l.resolve ⟨name, description, before ++ e :: after⟩ = .ok p ↔
            l.resolve ⟨name, description, before ++ .reference kind path :: after⟩ = .ok p) ∧
        ∀ name,
          (∃ list, l.resolve (.of name [e]) = .ok ⟨name, [list]⟩ ∧
            l.resolve (.of name [.reference kind path]) = .ok ⟨name, [list]⟩) ∨
          ∃ reason, l.resolve (.of name [e]) = .error (.unsupported none reason) ∧
            l.resolve (.of name [.reference kind path]) =
              .error (.inEntry 1 path (.unsupported (some file) reason))) ∧
    ∀ (s : Sequence) (kind : Option EntryKind) (path : String), .reference kind path ∈ s.entries →
      (∀ d, l.document path = .ok d → ¬ d.Fits kind) → ∃ error, l.resolve s = .error error := by
  refine ⟨fun s p => resolve_eq_ok_iff, fun s => resolve_error_iff, ?_, ?_⟩
  · intro e d kind path file hcarried hstored hkind
    refine ⟨fun name description before after p => ?_, resolve_single hcarried hstored hkind⟩
    have hsame : ∀ list, l.Stands e list ↔ l.Stands (.reference kind path) list :=
      fun list => (stands_reference_iff hcarried hstored hkind).symm
    rw [resolve_eq_ok_iff, resolve_eq_ok_iff]
    exact and_congr_right fun _ => forall₂_stands_congr hsame
  · -- a document that does not fit stands for nothing
    intro s kind path hmem hmisfit
    refine resolve_error_iff.mpr ⟨_, hmem, fun list hstands => ?_⟩
    obtain ⟨hd, -, -⟩ | ⟨hd, hfits, -⟩ := hstands
    · cases hd
    · exact hmisfit _ hd hfits

/-- A list with a segment that has no name. -/
def tour : SegmentList := ⟨"Tour", "", 1, [{ Segment.ofName "" with timeout := 1.5 }]⟩

/-- A library with this list. -/
def shelf : Loader := ⟨"res", [(["res", "tour.json"], .text (Document.list tour).toValue.render)]⟩

/-- The list makes the same playlist, with a name for its segment, whether it is carried or pointed
at; where a segment is expected it makes none. -/
theorem tour_resolves_alike :
    (shelf.resolve (.of "All" [.list tour]) = .ok ⟨"All", [tour.named]⟩ ∧
      shelf.resolve (.of "All" [.reference (some .segmentList) "tour"]) =
        .ok ⟨"All", [tour.named]⟩) ∧
      ∃ error, shelf.resolve (.of "All" [.list tour, .reference (some .segment) "tour"]) =
        .error error := by
  obtain ⟨-, -, halike, hmisfit⟩ := entries_resolve_alike shelf
  have hkept : tour.Kept := List.forall_mem_singleton.mpr
    { entryCriteria := List.forall_mem_nil _
      endCriteria := List.forall_mem_nil _
      action := fun a ha => by cases ha
      timeout := by decide }
  have hreals : tour.toValue.RealsReadBack := by
    have htimeout := Value.realsReadBack_ofFloat Document.readsBack_half
    simp [SegmentList.toValue, Segment.toValue, tour, Segment.ofName, Value.RealsReadBack,
      Value.ItemsReadBack, Value.FieldsReadBack, htimeout]
  have hstored : shelf.Stores "tour" "res/tour.json" (.list tour) :=
    { path := by decide
      text := rfl
      kept := hkept
      depth := by decide
      reals := hreals }
  have hcarried : shelf.resolve (.of "All" [.list tour]) = .ok ⟨"All", [tour.named]⟩ := rfl
  -- carried or pointed at, it makes the same playlist or is refused
  obtain ⟨-, halone⟩ :=
    halike (.list tour) (.list tour) (some .segmentList) "tour" "res/tour.json" rfl hstored
      (.inr rfl)
  constructor
  · obtain ⟨list, hlist, hreference⟩ | ⟨reason, hreason, -⟩ := halone "All"
    · rw [hcarried] at hlist
      cases hlist
      exact ⟨hcarried, hreference⟩
    · rw [hcarried] at hreason
      cases hreason
  · refine hmisfit _ (some .segment) "tour" (List.mem_cons_of_mem _ (List.mem_singleton_self _))
      fun d hd => ?_
    have hload : shelf.document "tour" = .ok (.list tour.named) :=
      document_eq (e := .list tour) rfl hstored
    rw [hload] at hd
    cases hd
    -- the document is a list, and a segment is expected
    rintro ⟨k, hk, hexpected | hexpected⟩
    · cases hexpected
    · cases hexpected
      cases hk

/-- A float that does not read back tells the two apart: a segment that is carried keeps its
timeout, and one that is pointed at has another. -/
theorem timeout_tells_apart :
    let s : Segment := { Segment.ofName "S" with timeout := 31.245270191439438 }
    let l : Loader := ⟨"res", [(["res", "s.json"], .text s.toValue.render)]⟩
    s.Kept ∧ s.toValue.depth ≤ depthLimit ∧ l.file? "s" = some "res/s.json" ∧
      l.tree.read "res/s.json" = .ok s.toValue.render ∧
      ∃ list list', l.resolve (.of "All" [.segment s]) = .ok ⟨"All", [list]⟩ ∧
        l.resolve (.of "All" [.reference none "s"]) = .ok ⟨"All", [list']⟩ ∧ list ≠ list' := by
  intro s l
  let s' : Segment := { s with timeout := 31.24527019143944 }
  have hkept : ∀ {x : Float}, x.isFinite = true → Segment.Kept { s with timeout := x } := fun hx =>
    { entryCriteria := List.forall_mem_nil _
      endCriteria := List.forall_mem_nil _
      action := fun a ha => by cases ha
      timeout := hx }
  have hfinite : s.timeout.isFinite = true := by decide
  have hfinite' : s'.timeout.isFinite = true := by decide
  -- the text is read as that of a segment with the other timeout
  have hnode : s.toValue.reread 0 = Node.ofValue s'.toValue := by
    have hwritten : Value.ofFloat s.timeout = .real ⟨s.timeout, hfinite⟩ := dif_pos hfinite
    have hwritten' : Value.ofFloat s'.timeout = .real ⟨s'.timeout, hfinite'⟩ := dif_pos hfinite'
    unfold Segment.toValue
    rw [hwritten, hwritten']
    exact congrArg (fun timeout => Node.obj [(.ok "name", .str "S"), (.ok "description", .str ""),
      (.ok "apiVersion", .int (.ofUInt32 1)), (.ok "entryCriteria", .arr [] none),
      (.ok "endCriteria", .arr [] none), (.ok "endCriteriaJoin", .str "All"),
      (.ok "timeout", timeout)] none) Document.reread_inexact
  have hsegment : Document.ofText s.toValue.render = .ok (.segment s') := by
    refine Document.ofText_segment (Document.segment_not_sequence s)
      (Document.segment_not_list s) ?_
    rw [Decoder.ofText_render, hnode]
    exact Segment.decoder_toValue (hkept hfinite')
  have hfile : l.file? "s" = some "res/s.json" := by decide
  have hread : l.tree.read "res/s.json" = .ok s.toValue.render := rfl
  have hload : l.document "s" = .ok (.segment s') := document_of_text hfile hread hsegment
  refine ⟨hkept hfinite, by decide, hfile, hread, .ofSegment s, .ofSegment s', rfl, ?_, fun h => ?_⟩
  · exact resolve_eq_ok_iff.mpr ⟨rfl, .cons (.found hload ⟨.segment, rfl, .inl rfl⟩ rfl) .nil⟩
  · injection h with _ _ _ hsegments
    have htimeout : (31.245270191439438 : Float).toBits = (31.24527019143944 : Float).toBits :=
      congrArg (fun s : Segment => s.timeout.toBits) (List.cons.inj hsegments).1
    exact absurd htimeout (by decide)

end Loader

end Resource

end Playtest
