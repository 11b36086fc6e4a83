import Playtest.Proofs.Json.Records
import Playtest.Proofs.Json.Text
import Playtest.Proofs.Text.Base64
import Playtest.Scene.Frame

/-!
# Frames come back from documents

A frame that is written and read again is the same frame (`Frame.decoder_toValue`), and so are the
objects in it and its screenshot. What is not there is not written, and nothing stands for it when
it is read. What does not come back is what JSON cannot hold: times and positions that are not
finite (`Frame.Kept`).

Attributes are values of any depth, and a frame is nested four deeper than those of its objects. So
frames that are nested deeper than documents may be are written, but not read from their text
(`Frame.ofText_render` has the bound).
-/

namespace Playtest

open Playtest.Json

variable {source : Source}

/-- Fields in the order of their keys come back. -/
theorem Json.Decoder.fields_ofFields {fields : Fields}
    (h : (Value.obj fields).sorted = .obj fields) :
    Decoder.fields source (Node.ofValue (.obj fields)) = .ok fields := by
  rw [Value.sorted] at h
  have hsorted : Fields.ofList (Value.sortedFields fields) = fields := Value.obj.inj h
  -- reading gives the fields sorted by their keys, which is how they were
  change ((Node.fieldsToValues (Node.ofFields fields) []).mapError DecodeError.fault >>= _) = _
  rw [Node.fieldsToValues_ofFields]
  exact congrArg Except.ok hsorted

/-! ### Screenshots -/

/-- What is encoded is decoded again. -/
theorem Vision.bytesDecoder_encode (bytes : List UInt8) :
    bytesDecoder source (.str (Text.Base64.encode bytes)) = .ok bytes := by
  refine Decoder.andThen_eq_ok_iff.mpr ⟨_, rfl, ?_⟩
  rw [Text.Base64.decode_encode]
  rfl

/-- A screenshot comes back. -/
theorem Vision.Screenshot.decoder_toValue (s : Screenshot) :
    Screenshot.decoder source (Node.ofValue s.toValue) = .ok s := by
  refine Record.decoder_obj rfl fun _ => ?_
  refine Record.read_seq (Record.read_seq (Record.read_map ?width) ?height) ?data
  case width => exact Record.read_named rfl (Decoder.uint32_ofUInt32 _)
  case height => exact Record.read_named rfl (Decoder.uint32_ofUInt32 _)
  case data => exact Record.read_named rfl (Vision.bytesDecoder_encode _)

namespace Scene

/-! ### Objects -/

/-- An object is **kept** by documents. -/
structure Object.Kept (o : Object) : Prop where
  position : ∀ p ∈ o.position, ∀ x ∈ p, x.isFinite = true
  attributes : (Value.obj o.attributes).sorted = .obj o.attributes

/-- An object comes back, if it is kept. -/
theorem Object.decoder_toValue {o : Object} (h : o.Kept) :
    Object.decoder source (Node.ofValue o.toValue) = .ok o := by
  -- whatever is offered, it is the object if each field is offered as it was written
  have hfields : ∀ {offer : Offer} {i j k : Nat},
      offer.find "id" = some (i, .int (.ofInt64 o.id)) →
      (offer.find "parentId").map (·.2) = o.parentId.map (fun id => Node.int (.ofInt64 id)) →
      (offer.find "name").map (·.2) = o.name.map Node.str →
      offer.find "components" = some (j, Node.ofValue (.arr (o.components.map .str))) →
      (offer.find "position").map (·.2) = o.position.map (fun p =>
        Node.ofValue (.arr (p.map .ofFloat))) →
      offer.find "attributes" = some (k, Node.ofValue (.obj o.attributes)) →
        Object.record.read offer = .ok o := by
    intro offer i j k hid hparent hname hcomponents hposition hattributes
    refine Record.read_seq (Record.read_seq
      (Record.read_seq (Record.read_seq (Record.read_seq (Record.read_map ?id)
      ?parent) ?name) ?components) ?position) ?attributes
    case id => exact Record.read_named hid (Decoder.int64_ofInt64 _)
    case parent =>
      refine Record.read_fieldMaybe hparent fun id _ => ?_
      exact congrArg (Except.map some) (Decoder.int64_ofInt64 id)
    case name => exact Record.read_fieldMaybe hname fun _ _ => rfl
    case components => exact Record.read_named hcomponents (Decoder.list_ofItems fun _ _ => rfl)
    case position =>
      refine Record.read_fieldMaybe hposition fun p hp => ?_
      exact Decoder.option_ofValue Value.noConfusion
        (Decoder.list_ofItems fun x hx => Decoder.float_ofFloat (h.position p hp x hx))
    case attributes => exact Record.read_named hattributes (Decoder.fields_ofFields h.attributes)
  -- what is written depends on which of three fields are there
  obtain ⟨id, parentId, name, components, position, attributes⟩ := o
  cases parentId <;> cases name <;> cases position <;>
    exact Record.decoder_obj rfl fun _ => hfields rfl rfl rfl rfl rfl rfl

/-! ### Frames -/

/-- A frame is **kept** by documents. -/
structure Frame.Kept (f : Frame) : Prop where
  time : ∀ t ∈ f.time, t.isFinite = true
  objects : ∀ o ∈ f.objects, o.Kept

/-- A frame comes back, if it is kept. -/
theorem Frame.decoder_toValue {f : Frame} (h : f.Kept) :
    Frame.decoder source (Node.ofValue f.toValue) = .ok f := by
  -- as for an object, the fields that are read do not depend on what else is offered
  have hfields : ∀ {offer : Offer} {i j : Nat},
      offer.find "frame" = some (i, .int (.ofUInt64 f.number)) →
      (offer.find "time").map (·.2) = f.time.map (fun t => Node.ofValue (.ofFloat t)) →
      offer.find "objects" = some (j, Node.ofValue (.arr (f.objects.map Object.toValue))) →
      (offer.find "screenshot").map (·.2) = f.screenshot.map (fun s => Node.ofValue s.toValue) →
      Frame.record.read offer = .ok f := by
    intro offer i j hnumber htime hobjects hscreenshot
    refine Record.read_seq (Record.read_seq (Record.read_seq (Record.read_map ?number) ?time)
      ?objects) ?screenshot
    case number => exact Record.read_named hnumber (Decoder.uint64_ofUInt64 _)
    case time =>
      refine Record.read_fieldMaybe htime fun t ht => ?_
      have hfinite := h.time t ht
      refine Decoder.option_ofValue (fun hnull => ?_) (Decoder.float_ofFloat hfinite)
      rw [Value.ofFloat, dif_pos hfinite] at hnull
      cases hnull
    case objects =>
      exact Record.read_named hobjects (Decoder.list_ofItems fun o ho =>
        Object.decoder_toValue (h.objects o ho))
    case screenshot =>
      refine Record.read_fieldMaybe hscreenshot fun s _ => ?_
      exact Decoder.option_ofValue Value.noConfusion s.decoder_toValue
  -- the time and the screenshot may be missing
  obtain ⟨number, time, objects, screenshot⟩ := f
  cases time <;> cases screenshot <;> exact Record.decoder_obj rfl fun _ => hfields rfl rfl rfl rfl

/-- **A frame comes back from its text**, if its floats read back and it is not nested too deep. -/
theorem Frame.ofText_render {f : Frame} (h : f.Kept) (hreals : f.toValue.RealsReadBack)
    (hdepth : f.toValue.depth ≤ depthLimit) : Frame.decoder.ofText f.toValue.render = .ok f := by
  rw [Decoder.ofText_render, Value.reread_eq _ 0 hreals (by omega)]
  exact decoder_toValue h

end Scene

end Playtest
