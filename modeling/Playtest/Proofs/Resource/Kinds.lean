import Playtest.Resource.Document
import Playtest.Proofs.Json.Text
import Playtest.Proofs.Resource.WireForm

/-!
# Kinds of documents are told apart

A document is taken for the first of three kinds that it can be read as, and none of the kinds names
itself. What tells them apart is which fields they have:

* a segment has no field `segments`, which both others need (`Segment.not_list`,
  `Segment.not_sequence`),
* the segments of a list say none of the things that an entry of a sequence says, and without
  segments there would be no entry (`SegmentList.not_sequence`).

So a document comes back from its text as what it is (`Document.comes_back`).
-/

namespace Playtest

open Playtest.Json

/-! ### Fields of documents -/

/-- An object that is not too deep is read as an object. -/
theorem Json.Value.reread_obj {fields : Fields} {depth : Nat} (h : depth < depthLimit) :
    (Value.obj fields).reread depth = .obj (Value.rereadFields (depth + 1) fields) none := by
  unfold Value.reread objectNode
  rw [if_pos h]

section Fields

variable {α : Type} {r : Record α} {title : String} {fields : Fields} {depth : Nat} {a : α}

/-- A structure that was read from an object has been offered the fields of that object. -/
theorem of_decoder_reread (hdepth : depth < depthLimit)
    (h : r.decoder title false .text ((Value.obj fields).reread depth) = .ok a) :
    ∃ offer : Offer, offer.source = .text ∧ r.read offer = .ok a ∧
      ∀ name place node, offer.find name = some (place, node) →
        ∃ field ∈ fields, Record.ownName? r.names field.1 = some name ∧
          node = field.2.reread (depth + 1) := by
  rw [Value.reread_obj hdepth] at h
  obtain ⟨offer, hsource, hread, hoffered⟩ := Record.of_decoder_obj h
  refine ⟨offer, hsource, hread, fun name place node hfind => ?_⟩
  obtain ⟨key, hmem, hown⟩ := hoffered name place node hfind
  rw [Value.rereadFields_eq_map] at hmem
  obtain ⟨field, hfield, heq⟩ := List.mem_map.mp hmem
  cases heq
  exact ⟨field, hfield, hown, rfl⟩

end Fields

namespace Segment

/-- The fields that a segment can have. -/
def fieldNames : List String :=
  ["name", "description", "sessionId", "apiVersion", "entryCriteria", "endCriteria",
    "endCriteriaJoin", "botAction", "timeout"]

/-- A segment is written with these fields, and not always with all of them. -/
theorem exists_fields (s : Segment) :
    ∃ fields : Fields, s.toValue = .obj fields ∧ ∀ field ∈ fields, field.1 ∈ fieldNames := by
  refine ⟨_, rfl, ?_⟩
  unfold fieldNames
  cases s.sessionId <;> cases s.action <;> simp

variable {s : Segment} {depth : Nat}

/-- A field that a structure asks for and segments do not have is not offered by one. -/
theorem of_decoder {α : Type} {r : Record α} {title : String} {a : α} (hdepth : depth < depthLimit)
    (h : r.decoder title false .text (s.toValue.reread depth) = .ok a) :
    ∃ offer : Offer, r.read offer = .ok a ∧
      ∀ name, (∀ key ∈ fieldNames, Record.ownName? r.names key ≠ some name) →
        offer.find name = none := by
  obtain ⟨fields, hfields, hnames⟩ := s.exists_fields
  rw [hfields] at h
  obtain ⟨offer, -, hread, hoffered⟩ := of_decoder_reread hdepth h
  refine ⟨offer, hread, fun name hname =>
    Option.eq_none_iff_forall_ne_some.mpr fun found hfind => ?_⟩
  obtain ⟨field, hfield, hown, -⟩ := hoffered name found.1 found.2 hfind
  exact hname field.1 (hnames field hfield) hown

/-- **A segment is no segment list.** -/
theorem not_list (l : SegmentList) : SegmentList.decoder .text (s.toValue.reread 0) ≠ .ok l := by
  intro h
  obtain ⟨offer, hread, hnone⟩ := of_decoder (by decide) h
  obtain ⟨_, segments, -, hsegments, -⟩ := Record.of_read_seq hread
  obtain ⟨_, _, hfind, -⟩ := Record.of_read_field hsegments
  rw [hnone "segments" (by decide)] at hfind
  cases hfind

/-- **A segment is no sequence.** -/
theorem not_sequence (q : Sequence) : Sequence.decoder .text (s.toValue.reread 0) ≠ .ok q := by
  intro h
  obtain ⟨raw, h, -⟩ := Decoder.andThen_eq_ok_iff.mp h
  obtain ⟨offer, hread, hnone⟩ := of_decoder (by decide) h
  obtain ⟨_, entries, -, hentries, -⟩ := Record.of_read_seq hread
  obtain ⟨_, _, hfind, -⟩ := Record.of_read_field hentries
  rw [hnone "segments" (by decide)] at hfind
  cases hfind

/-- A segment is no entry of a sequence: it says none of the things that an entry says. -/
theorem not_entry (e : Entry) (hdepth : depth < depthLimit) :
    Entry.decoder .text (s.toValue.reread depth) ≠ .ok e := by
  intro h
  obtain ⟨chosen, h, hchosen⟩ := Decoder.andThen_eq_ok_iff.mp h
  obtain ⟨offer, hread, hnone⟩ := of_decoder hdepth h
  -- each of the four things is asked for by a name that no field of a segment has
  obtain ⟨_, segment, hothers, hsegment, rfl⟩ := Record.of_read_seq hread
  obtain ⟨_, list, hothers', hlist, rfl⟩ := Record.of_read_seq hothers
  obtain ⟨_, path, hfirst, hpath, rfl⟩ := Record.of_read_seq hothers'
  obtain ⟨kind, hkind, rfl⟩ := Record.of_read_map hfirst
  cases Record.of_read_fieldMaybe hsegment (hnone "segment" (by decide))
  cases Record.of_read_fieldMaybe hlist (hnone "segmentList" (by decide))
  cases Record.of_read_fieldMaybe hpath (hnone "path" (by decide))
  cases Record.of_read_fieldMaybe hkind (hnone "type" (by decide))
  cases hchosen

end Segment

namespace SegmentList

/-- **A segment list is no sequence.** Its segments would be the entries. -/
theorem not_sequence (l : SegmentList) (q : Sequence) :
    Sequence.decoder .text (l.toValue.reread 0) ≠ .ok q := by
  intro h
  obtain ⟨raw, h, hsome⟩ := Decoder.andThen_eq_ok_iff.mp h
  obtain ⟨offer, hsource, hread, hoffered⟩ := of_decoder_reread (by decide) h
  obtain ⟨_, entries, hothers, hentries, rfl⟩ := Record.of_read_seq hread
  obtain ⟨_, description, hname, -, rfl⟩ := Record.of_read_seq hothers
  obtain ⟨name, -, rfl⟩ := Record.of_read_map hname
  obtain ⟨place, node, hfind, hentries⟩ := Record.of_read_field hentries
  obtain ⟨field, hfield, hown, rfl⟩ := hoffered _ _ _ hfind
  -- of the fields of a list, the segments are the only ones that can be taken for entries
  have honly : ∀ key ∈ ["name", "description", "apiVersion"],
      Record.ownName? Sequence.record.names key ≠ some "segments" := by decide
  obtain rfl : field = ("segments", .arr (l.segments.map Segment.toValue)) := by
    simp only [List.mem_cons, List.not_mem_nil, or_false] at hfield
    obtain rfl | rfl | rfl | rfl := hfield
    · exact absurd hown (honly "name" (by decide))
    · exact absurd hown (honly "description" (by decide))
    · exact absurd hown (honly "apiVersion" (by decide))
    · rfl
  cases entries with
  | nil => cases hsome
  | cons e entries =>
    -- the first entry would be a segment
    obtain ⟨n, hn, he⟩ := Decoder.of_list_arr hentries e (.head _)
    rw [Value.rereadItems_eq_map] at hn
    obtain ⟨v, hv, rfl⟩ := List.mem_map.mp hn
    obtain ⟨s, -, rfl⟩ := List.mem_map.mp hv
    exact s.not_entry e (by decide) (hsource ▸ he)

end SegmentList

namespace Resource.Document

/-! ### Documents -/

/-- A document is **kept** by its text. -/
def Kept : Document → Prop
  | .sequence q => q.Kept
  | .list l => l.Kept
  | .segment s => s.Kept

/-- A document as it is read: the segments of a list have names. -/
def withNames : Document → Document
  | .list l => .list l.named
  | d => d

variable {text : String} {q : Sequence} {l : SegmentList} {s : Segment}

/-- What can be read as a sequence is taken for one. -/
theorem ofText_sequence (h : Sequence.decoder.ofText text = .ok q) :
    ofText text = .ok (.sequence q) := by
  unfold ofText
  rw [h]

/-- What can be read as a list is taken for one, if it can be read as no sequence. -/
theorem ofText_list (hsequence : ∀ q, Sequence.decoder.ofText text ≠ .ok q)
    (h : SegmentList.decoder.ofText text = .ok l) : ofText text = .ok (.list l.named) := by
  unfold ofText
  split
  · next q hq => exact absurd hq (hsequence q)
  · rw [h]

/-- What can be read as a segment is taken for one, if it can be read as nothing else. -/
theorem ofText_segment (hsequence : ∀ q, Sequence.decoder.ofText text ≠ .ok q)
    (hlist : ∀ l, SegmentList.decoder.ofText text ≠ .ok l)
    (h : Segment.decoder.ofText text = .ok s) : ofText text = .ok (.segment s) := by
  unfold ofText
  split
  · next q hq => exact absurd hq (hsequence q)
  · split
    · next l hl => exact absurd hl (hlist l)
    · rw [h]

/-- A document was read as one of the three kinds. -/
theorem of_ofText {d : Document} (h : ofText text = .ok d) :
    (∃ q, Sequence.decoder.ofText text = .ok q ∧ d = .sequence q) ∨
      (∃ l, SegmentList.decoder.ofText text = .ok l ∧ d = .list l.named) ∨
      ∃ s, Segment.decoder.ofText text = .ok s ∧ d = .segment s := by
  unfold ofText at h
  split at h
  · next q hq => exact .inl ⟨q, hq, (Except.ok.inj h).symm⟩
  · split at h
    · next l hl => exact .inr (.inl ⟨l, hl, (Except.ok.inj h).symm⟩)
    · split at h
      · next s hs => exact .inr (.inr ⟨s, hs, (Except.ok.inj h).symm⟩)
      · cases h

/-- What cannot be read as a sequence is not taken for one. -/
theorem ofText_ne_sequence (h : ∀ q, Sequence.decoder.ofText text ≠ .ok q) (q : Sequence) :
    ofText text ≠ .ok (.sequence q) := by
  intro htext
  obtain ⟨q, hq, -⟩ | ⟨_, -, heq⟩ | ⟨_, -, heq⟩ := of_ofText htext
  · exact h q hq
  · cases heq
  · cases heq

/-- What cannot be read as a list is not taken for one. -/
theorem ofText_ne_list (h : ∀ l, SegmentList.decoder.ofText text ≠ .ok l) (l : SegmentList) :
    ofText text ≠ .ok (.list l) := by
  intro htext
  obtain ⟨_, -, heq⟩ | ⟨l, hl, -⟩ | ⟨_, -, heq⟩ := of_ofText htext
  · cases heq
  · exact h l hl
  · cases heq

/-- The text of a list is no sequence. -/
theorem list_not_sequence (l : SegmentList) (q : Sequence) :
    Sequence.decoder.ofText l.toValue.render ≠ .ok q := by
  rw [Decoder.ofText_render]
  exact l.not_sequence q

/-- Nor is the text of a segment. -/
theorem segment_not_sequence (s : Segment) (q : Sequence) :
    Sequence.decoder.ofText s.toValue.render ≠ .ok q := by
  rw [Decoder.ofText_render]
  exact s.not_sequence q

/-- And the text of a segment is no list. -/
theorem segment_not_list (s : Segment) (l : SegmentList) :
    SegmentList.decoder.ofText s.toValue.render ≠ .ok l := by
  rw [Decoder.ofText_render]
  exact s.not_list l

/-- **Documents come back from their texts as what they are**, if their floats read back; and
whatever becomes of the floats, a document is not taken for one of another kind that comes first. -/
theorem comes_back :
    (∀ d : Document, d.Kept → (∀ q, d = .sequence q → q.entries ≠ []) →
      d.toValue.depth ≤ depthLimit → d.toValue.RealsReadBack →
        ofText d.toValue.render = .ok d.withNames) ∧
    (∀ (l : SegmentList) (q : Sequence), ofText l.toValue.render ≠ .ok (.sequence q)) ∧
    ∀ s : Segment, (∀ q : Sequence, ofText s.toValue.render ≠ .ok (.sequence q)) ∧
      ∀ l : SegmentList, ofText s.toValue.render ≠ .ok (.list l) := by
  refine ⟨fun d hkept hentries hdepth hreals => ?_,
    fun l => ofText_ne_sequence (list_not_sequence l),
    fun s => ⟨ofText_ne_sequence (segment_not_sequence s), ofText_ne_list (segment_not_list s)⟩⟩
  -- the text is read as the node of the value, from which the kinds are read one after another
  have hnode : d.toValue.reread 0 = Node.ofValue d.toValue := Value.reread_eq _ 0 hreals (by omega)
  cases d with
  | sequence q =>
    refine ofText_sequence ?_
    rw [Decoder.ofText_render]
    exact hnode ▸ Sequence.decoder_toValue hkept (hentries q rfl)
  | list l =>
    refine ofText_list (list_not_sequence l) ?_
    rw [Decoder.ofText_render]
    exact hnode ▸ SegmentList.decoder_toValue hkept
  | segment s =>
    refine ofText_segment (segment_not_sequence s) (segment_not_list s) ?_
    rw [Decoder.ofText_render]
    exact hnode ▸ Segment.decoder_toValue hkept

/-- Zero reads back. -/
theorem readsBack_zero : Real.ReadsBack ⟨0.0, by decide⟩ := by
  have htext : realText ⟨0.0, by decide⟩ = "0.0" := by decide +kernel
  refine Real.reread_eq_real 0 (-1) htext rfl ?_
  unfold Number.ofScaled?
  rw [Number.scale?_of_le (by decide)]
  decide +kernel

/-- So does one and a half. -/
theorem readsBack_half : Real.ReadsBack ⟨1.5, by decide⟩ := by
  have htext : realText ⟨1.5, by decide⟩ = "1.5" := by decide +kernel
  refine Real.reread_eq_real 15 (-1) htext rfl ?_
  unfold Number.ofScaled?
  rw [Number.scale?_of_le (by decide)]
  decide +kernel

/-- A list with an unnamed segment and a sequence of two entries come back. -/
theorem tour_comes_back :
    (let wait : Segment := { Segment.ofName "" with sessionId := some "7", timeout := 1.5 }
     let l : SegmentList := ⟨"Tour", "", 1, [wait]⟩
     ofText (list l).toValue.render =
       .ok (.list ⟨"Tour", "", 1, [{ wait with name := "Tour - Segment #1" }]⟩)) ∧
    let q : Sequence := .of "All" [.reference (some .segment) "first", .segment (.ofName "Second")]
    ofText (sequence q).toValue.render = .ok (.sequence q) := by
  -- a segment without criteria and action is kept by its time limit alone
  have hplain : ∀ s : Segment, s.entryCriteria = [] → s.endCriteria = [] → s.action = none →
      s.timeout.isFinite = true → s.Kept := by
    intro s hentry hend haction htimeout
    refine { entryCriteria := ?_, endCriteria := ?_, action := ?_, timeout := htimeout }
    · rw [hentry]
      exact List.forall_mem_nil _
    · rw [hend]
      exact List.forall_mem_nil _
    · rw [haction]
      intro a ha
      cases ha
  constructor
  · intro wait l
    have hkept : (list l).Kept :=
      List.forall_mem_singleton.mpr (hplain wait rfl rfl rfl (by decide))
    have hreals : (list l).toValue.RealsReadBack := by
      have htimeout := Value.realsReadBack_ofFloat readsBack_half
      simp [toValue, SegmentList.toValue, Segment.toValue, l, wait, Segment.ofName,
        Value.RealsReadBack, Value.ItemsReadBack, Value.FieldsReadBack, htimeout]
    exact comes_back.1 (list l) hkept (fun q hq => by cases hq) (by decide) hreals
  · intro q
    have hkept : (sequence q).Kept := by
      refine List.forall_mem_cons.mpr ⟨trivial, List.forall_mem_singleton.mpr ?_⟩
      exact hplain (.ofName "Second") rfl rfl rfl (by decide)
    have hreals : (sequence q).toValue.RealsReadBack := by
      have htimeout := Value.realsReadBack_ofFloat readsBack_zero
      simp [toValue, Sequence.toValue, Entry.toValue, Segment.toValue, q, Sequence.of,
        Segment.ofName, Value.RealsReadBack, Value.ItemsReadBack, Value.FieldsReadBack, htimeout]
    refine comes_back.1 (sequence q) hkept (fun q' hq => ?_) (by decide) hreals
    cases hq
    exact List.cons_ne_nil _ _

/-- A float that does not read back: the quick reading of its text is a place off. -/
theorem reread_inexact :
    Real.reread ⟨31.245270191439438, by decide⟩ = .real ⟨31.24527019143944, by decide⟩ := by
  have htext : realText ⟨31.245270191439438, by decide⟩ = "31.245270191439438" := by decide +kernel
  refine Real.reread_eq_real 31245270191439438 (-15) htext rfl ?_
  unfold Number.ofScaled?
  rw [Number.scale?_of_le (by decide)]
  decide +kernel

/-- Such a float as its timeout keeps a segment from coming back. -/
theorem timeout_inexact :
    let s : Segment := { Segment.ofName "S" with timeout := 31.245270191439438 }
    (segment s).Kept ∧ s.toValue.depth ≤ depthLimit ∧
      ofText s.toValue.render ≠ .ok (.segment s) := by
  intro s
  let s' : Segment := { s with timeout := 31.24527019143944 }
  have hkept : ∀ {x : Float}, x.isFinite = true → Segment.Kept { s with timeout := x } := fun hx =>
    { entryCriteria := List.forall_mem_nil _
      endCriteria := List.forall_mem_nil _
      action := fun a ha => by cases ha
      timeout := hx }
  have hfinite : s.timeout.isFinite = true := by decide
  have hfinite' : s'.timeout.isFinite = true := by decide
  -- the text is that of a segment with the other timeout, in every part but this one
  have hwritten : Value.ofFloat s.timeout = .real ⟨s.timeout, hfinite⟩ := dif_pos hfinite
  have hwritten' : Value.ofFloat s'.timeout = .real ⟨s'.timeout, hfinite'⟩ := dif_pos hfinite'
  have hnode : s.toValue.reread 0 = Node.ofValue s'.toValue := by
    unfold Segment.toValue
    rw [hwritten, hwritten']
    exact congrArg (fun timeout => Node.obj [(.ok "name", .str "S"), (.ok "description", .str ""),
      (.ok "apiVersion", .int (.ofUInt32 1)), (.ok "entryCriteria", .arr [] none),
      (.ok "endCriteria", .arr [] none), (.ok "endCriteriaJoin", .str "All"),
      (.ok "timeout", timeout)] none) reread_inexact
  refine ⟨hkept hfinite, by decide, fun h => ?_⟩
  have hread : ofText s.toValue.render = .ok (.segment s') := by
    refine ofText_segment (segment_not_sequence s) (segment_not_list s) ?_
    rw [Decoder.ofText_render, hnode]
    exact Segment.decoder_toValue (hkept hfinite')
  rw [hread] at h
  injection h with h
  injection h with h
  have htimeout : (31.24527019143944 : Float).toBits = (31.245270191439438 : Float).toBits :=
    congrArg (fun s : Segment => s.timeout.toBits) h
  exact absurd htimeout (by decide)

end Resource.Document

end Playtest
