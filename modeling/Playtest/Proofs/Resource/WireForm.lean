import Playtest.Sequence
import Playtest.Proofs.Criteria.WireForm

/-!
# Sequences, lists and segments come back from documents

A segment that is written and read again is the same segment, and so are actions, lists and
sequences. It is enough that their numbers are finite and that the values in them have their fields
in order (`Segment.Kept`).

Parts that are not there are not written at all, so for each of them the fields of a document are
different ones (`Segment.read_fields`).
-/

namespace Playtest

open Playtest.Json

/-! ### What can be written -/

/-- An action is **kept** by documents. -/
def Action.Kept (a : Action) : Prop := a.data.sorted = a.data

/-- A segment is **kept** by documents. -/
structure Segment.Kept (s : Segment) : Prop where
  entryCriteria : ∀ c ∈ s.entryCriteria, c.Everywhere Test.Kept
  endCriteria : ∀ c ∈ s.endCriteria, c.Everywhere Test.Kept
  action : ∀ a, s.action = some a → a.Kept
  timeout : s.timeout.isFinite = true

/-- A segment list is **kept** by documents. -/
def SegmentList.Kept (l : SegmentList) : Prop := ∀ s ∈ l.segments, s.Kept

/-- An entry is **kept** by documents. -/
def Entry.Kept : Entry → Prop
  | .reference _ _ => True
  | .list l => l.Kept
  | .segment s => s.Kept

/-- A sequence is **kept** by documents. -/
def Sequence.Kept (s : Sequence) : Prop := ∀ e ∈ s.entries, e.Kept

/-! ### Reading them -/

variable {source : Source}

/-- How criteria are joined comes back from its name. -/
theorem Join.decoder_name (j : Join) : Join.decoder source (.str j.name) = .ok j := by
  cases j <;> rfl

/-- So does the kind of an entry. -/
theorem EntryKind.decoder_name (k : EntryKind) :
    EntryKind.decoder source (.str k.name) = .ok k := by
  cases k <;> rfl

/-- A target comes back from its document. -/
theorem Target.decoder_toValue (t : Target) :
    Target.decoder source (Node.ofValue t.toValue) = .ok t := by
  cases t with
  | id entity =>
    exact Variant.decoder_obj rfl
      (Except.map_eq_ok_iff.mpr ⟨entity, Decoder.int64_ofInt64 entity, rfl⟩)
  | path p => exact Variant.decoder_obj rfl rfl
  | normalizedPath p => exact Variant.decoder_obj rfl rfl

theorem Target.toValue_ne_null (t : Target) : t.toValue ≠ .null := by
  cases t <;> exact Value.noConfusion

/-- **An action comes back from its document.** -/
theorem Action.decoder_toValue {a : Action} (h : a.Kept) :
    Action.decoder source (Node.ofValue a.toValue) = .ok a := by
  have hfields : ∀ {offer : Offer} {i j k : Nat}, offer.find "type" = some (i, .str a.type) →
      offer.find "apiVersion" = some (j, .int (.ofUInt32 a.apiVersion)) →
      offer.find "data" = some (k, Node.ofValue a.data) →
      (Record.fieldMaybe "target" Target.decoder).read offer = .ok a.target →
      Action.record.read offer = .ok a := by
    intro offer i j k htype hversion hdata htarget
    refine Record.read_seq (Record.read_seq (Record.read_seq (Record.read_map ?type) ?version)
      ?data) htarget
    case type => exact Record.read_named htype rfl
    case version => exact Record.read_named hversion (Decoder.uint32_ofUInt32 _)
    case data => exact Record.read_named hdata (Decoder.value_ofValue h)
  -- a target that is not there is not written
  obtain ⟨type, version, data, target⟩ := a
  cases target with
  | none => exact Record.decoder_obj rfl fun _ => hfields rfl rfl rfl (Record.read_absent rfl)
  | some t =>
    have ht : Target.decoder.option source (Node.ofValue t.toValue) = .ok (some t) :=
      Decoder.option_ofValue t.toValue_ne_null t.decoder_toValue
    exact Record.decoder_obj rfl fun _ => hfields rfl rfl rfl (Record.read_named rfl ht)

/-- So do the criteria of a phase. -/
theorem criteria_decoder_toValue {cs : List Criteria} (h : ∀ c ∈ cs, c.Everywhere Test.Kept) :
    Criteria.decoder.list source (Node.ofValue (.arr (cs.map Criteria.toValue))) = .ok cs :=
  Decoder.list_ofItems fun c hc => Criteria.decoder_toValue (h c hc)

/-- The fields of a segment, but for those that may be missing. -/
theorem Segment.read_fields {s : Segment} (h : s.Kept) {offer : Offer} {i j k l m n o : Nat}
    (hname : offer.find "name" = some (i, .str s.name))
    (hdescription : offer.find "description" = some (j, .str s.description))
    (hversion : offer.find "apiVersion" = some (k, .int (.ofUInt32 s.apiVersion)))
    (hentry : offer.find "entryCriteria" = some (l,
      Node.ofValue (.arr (s.entryCriteria.map Criteria.toValue))))
    (hend : offer.find "endCriteria" = some (m,
      Node.ofValue (.arr (s.endCriteria.map Criteria.toValue))))
    (hjoin : offer.find "endCriteriaJoin" = some (n, .str s.endJoin.name))
    (htimeout : offer.find "timeout" = some (o, Node.ofValue (.ofFloat s.timeout)))
    (hsession : (Record.fieldMaybe "sessionId" .text).read offer = .ok s.sessionId)
    (haction : (Record.named "botAction" ["action"] Action.decoder.option (.filled none)).read
      offer = .ok s.action) :
    Segment.record.read offer = .ok s := by
  refine Record.read_seq (Record.read_seq (Record.read_seq (Record.read_seq (Record.read_seq
    (Record.read_seq (Record.read_seq (Record.read_seq (Record.read_map ?name) ?description)
    hsession) ?version) ?entry) ?exit) ?join) haction) ?timeout
  case name => exact Record.read_named hname rfl
  case description => exact Record.read_named hdescription rfl
  case version => exact Record.read_named hversion (Decoder.uint32_ofUInt32 _)
  case entry => exact Record.read_named hentry (criteria_decoder_toValue h.entryCriteria)
  case exit => exact Record.read_named hend (criteria_decoder_toValue h.endCriteria)
  case join => exact Record.read_named hjoin s.endJoin.decoder_name
  case timeout => exact Record.read_named htimeout (Decoder.float_ofFloat h.timeout)

/-- **A segment comes back from its document**, whether it has a session and an action or not. -/
theorem Segment.decoder_toValue {s : Segment} (h : s.Kept) :
    Segment.decoder source (Node.ofValue s.toValue) = .ok s := by
  have hsession : ∀ id : String, (Decoder.text).option source (.str id) = .ok (some id) :=
    fun id => rfl
  have haction : ∀ a, s.action = some a →
      Action.decoder.option source (Node.ofValue a.toValue) = .ok (some a) :=
    fun a ha => Decoder.option_ofValue Value.noConfusion (Action.decoder_toValue (h.action a ha))
  obtain ⟨name, description, sessionId, version, entryCriteria, endCriteria, join,
      action, timeout⟩ := s
  -- what is not there is not written, and so there are four kinds of documents
  cases sessionId with
  | none =>
    cases action with
    | none =>
      exact Record.decoder_obj rfl fun _ =>
        read_fields h rfl rfl rfl rfl rfl rfl rfl (Record.read_absent rfl) (Record.read_absent rfl)
    | some a =>
      exact Record.decoder_obj rfl fun _ =>
        read_fields h rfl rfl rfl rfl rfl rfl rfl (Record.read_absent rfl)
          (Record.read_named rfl (haction a rfl))
  | some id =>
    cases action with
    | none =>
      exact Record.decoder_obj rfl fun _ =>
        read_fields h rfl rfl rfl rfl rfl rfl rfl (Record.read_named rfl (hsession id))
          (Record.read_absent rfl)
    | some a =>
      exact Record.decoder_obj rfl fun _ =>
        read_fields h rfl rfl rfl rfl rfl rfl rfl (Record.read_named rfl (hsession id))
          (Record.read_named rfl (haction a rfl))

/-- **A segment list comes back from its document.** -/
theorem SegmentList.decoder_toValue {l : SegmentList} (h : l.Kept) :
    SegmentList.decoder source (Node.ofValue l.toValue) = .ok l := by
  have hsegments : Segment.decoder.list source
      (Node.ofValue (.arr (l.segments.map Segment.toValue))) = .ok l.segments :=
    Decoder.list_ofItems fun s hs => Segment.decoder_toValue (h s hs)
  refine Record.decoder_obj rfl fun missing => ?_
  refine Record.read_seq (Record.read_seq (Record.read_seq (Record.read_map ?name) ?description)
    ?version) ?segments
  case name => exact Record.read_named rfl rfl
  case description => exact Record.read_named rfl rfl
  case version => exact Record.read_named rfl (Decoder.uint32_ofUInt32 _)
  case segments => exact Record.read_named rfl hsegments

/-- The four fields of an entry, of which two at most are there. -/
theorem Entry.read_fields {offer : Offer} {e : Entry} (kind : Option EntryKind)
    (path : Option String) (list : Option SegmentList) (segment : Option Segment)
    (he : choose kind path list segment = .ok e)
    (hkind : (Record.fieldMaybe "type" EntryKind.decoder).read offer = .ok kind)
    (hpath : (Record.fieldMaybe "path" .text).read offer = .ok path)
    (hlist : (Record.fieldMaybe "segmentList" SegmentList.decoder).read offer = .ok list)
    (hsegment : (Record.fieldMaybe "segment" Segment.decoder).read offer = .ok segment) :
    Entry.record.read offer = .ok (.ok e) :=
  he ▸ Record.read_seq (Record.read_seq (Record.read_seq (Record.read_map hkind) hpath) hlist)
    hsegment

/-- **An entry comes back from its document.** -/
theorem Entry.decoder_toValue {e : Entry} (h : e.Kept) :
    Entry.decoder source (Node.ofValue e.toValue) = .ok e := by
  have hchosen : Entry.record.decoder "struct RawSequenceEntry" false source
      (Node.ofValue e.toValue) = .ok (.ok e) := by
    -- what the entry carries or points at is the one thing that is written, with its kind if there
    -- is one
    cases e with
    | reference kind path =>
      have hpath : (Decoder.text).option source (.str path) = .ok (some path) := rfl
      cases kind with
      | none =>
        refine Record.decoder_obj rfl fun _ =>
          read_fields none (some path) none none rfl ?_ ?_ ?_ ?_
        · exact Record.read_absent rfl
        · exact Record.read_named rfl hpath
        · exact Record.read_absent rfl
        · exact Record.read_absent rfl
      | some kind =>
        have hkind : EntryKind.decoder.option source (Node.ofValue (.str kind.name)) =
            .ok (some kind) :=
          Decoder.option_ofValue Value.noConfusion kind.decoder_name
        refine Record.decoder_obj rfl fun _ =>
          read_fields (some kind) (some path) none none rfl ?_ ?_ ?_ ?_
        · exact Record.read_named rfl hkind
        · exact Record.read_named rfl hpath
        · exact Record.read_absent rfl
        · exact Record.read_absent rfl
    | list l =>
      have hlist : SegmentList.decoder.option source (Node.ofValue l.toValue) = .ok (some l) :=
        Decoder.option_ofValue Value.noConfusion (SegmentList.decoder_toValue h)
      refine Record.decoder_obj rfl fun _ => read_fields none none (some l) none rfl ?_ ?_ ?_ ?_
      · exact Record.read_absent rfl
      · exact Record.read_absent rfl
      · exact Record.read_named rfl hlist
      · exact Record.read_absent rfl
    | segment s =>
      have hsegment : Segment.decoder.option source (Node.ofValue s.toValue) = .ok (some s) :=
        Decoder.option_ofValue Value.noConfusion (Segment.decoder_toValue h)
      refine Record.decoder_obj rfl fun _ => read_fields none none none (some s) rfl ?_ ?_ ?_ ?_
      · exact Record.read_absent rfl
      · exact Record.read_absent rfl
      · exact Record.read_absent rfl
      · exact Record.read_named rfl hsegment
  exact Decoder.andThen_eq_ok_iff.mpr ⟨.ok e, hchosen, rfl⟩

/-- A sequence without entries is none. -/
theorem Sequence.decoder_toValue {s : Sequence} (h : s.Kept) (hne : s.entries ≠ []) :
    Sequence.decoder source (Node.ofValue s.toValue) = .ok s := by
  have hentries : Entry.decoder.list source (Node.ofValue (.arr (s.entries.map Entry.toValue))) =
      .ok s.entries :=
    Decoder.list_ofItems fun e he => Entry.decoder_toValue (h e he)
  have hread : Sequence.record.decoder "struct RawBotSequence" false source
      (Node.ofValue s.toValue) = .ok s := by
    refine Record.decoder_obj rfl fun missing => ?_
    refine Record.read_seq (Record.read_seq (Record.read_map ?name) ?description) ?entries
    case name => exact Record.read_named rfl rfl
    case description => exact Record.read_named rfl rfl
    case entries => exact Record.read_named rfl hentries
  -- a sequence with entries is not refused
  have hsome : s.nonEmpty = .ok s := by
    unfold Sequence.nonEmpty
    rw [if_neg (by simpa using hne)]
  exact Decoder.andThen_eq_ok_iff.mpr ⟨s, hread, Except.mapError_eq_ok_iff.mpr hsome⟩

end Playtest
