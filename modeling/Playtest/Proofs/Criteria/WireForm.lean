import Playtest.Criteria.Document
import Playtest.Proofs.Json.Records

/-!
# Criteria come back from documents

A criteria that is written and read again is the same criteria, and so is one that was read in the
first place (`Criteria.reads_back`).

The data of a criteria is kept as a value until its type is known. So there are two steps to each
reading: up to the data (`Criteria.raw`), and the understanding of it (`Criteria.ofRaw_raw`), where
the members of a group are read in turn. The data is nested at least three deeper than that of a
member, which is why the bound on the depth is never met.

What does not come back is what JSON cannot hold: floats that are not finite
(`Test.ThresholdFinite`, `Test.TimeoutFinite`). Whatever was read holds finite timeouts, and values
in the order of their keys (`Criteria.everywhere_of_decoder`), so of a criteria that was read only
the thresholds matter: a number may be too large for one.
-/

namespace Playtest

open Playtest.Json

theorem CriteriaKind.ofName?_name (kind : CriteriaKind) : ofName? kind.name = some kind := by
  cases kind <;> rfl

/-! ### What can be written -/

/-- The values that an operator compares with. -/
def ValueOperator.values : ValueOperator → List Value
  | .equals v => [v]
  | .contains v => [v]
  | .range min max => [min, max]

namespace Test

/-- The threshold of a vision test is **finite**. -/
def ThresholdFinite : Test → Prop
  | .vision _ q => q.threshold.isFinite = true
  | _ => True

/-- The timeout of a validations test is **finite**. -/
def TimeoutFinite : Test → Prop
  | .validations timeout => timeout.isFinite = true
  | _ => True

/-- The values in a test have their fields in the order of the keys. -/
def ValuesOrdered : Test → Prop
  | .value t => ∀ v ∈ t.operator.values, v.sorted = v
  | .custom _ args => args.sorted = args
  | _ => True

/-- A test is **kept** by documents. -/
structure Kept (t : Test) : Prop where
  threshold : t.ThresholdFinite
  timeout : t.TimeoutFinite
  values : t.ValuesOrdered

end Test

namespace Criteria

/-- A condition holds **everywhere** in a criteria if it holds of all tests in it, at any depth. -/
inductive Everywhere (p : Test → Prop) : Criteria → Prop
  | single {v : Version} {t : Bool} {test : Test} (h : p test) : Everywhere p (.single v t test)
  | group {v : Version} {t : Bool} {join : Join} {members : List Criteria}
      (h : ∀ c ∈ members, Everywhere p c) : Everywhere p (.group v t join members)

/-- Two conditions hold everywhere if both do. -/
theorem Everywhere.and {p q : Test → Prop} {c : Criteria} (hp : c.Everywhere p)
    (hq : c.Everywhere q) :
    c.Everywhere fun t => p t ∧ q t := by
  induction hp with
  | single hp =>
    obtain ⟨hq⟩ := hq
    exact .single ⟨hp, hq⟩
  | group _ ih =>
    obtain ⟨⟩ | ⟨hq⟩ := hq
    exact .group fun c hc => ih c hc (hq c hc)

/-- What holds everywhere can be weakened. -/
theorem Everywhere.imp {p q : Test → Prop} {c : Criteria} (h : c.Everywhere p)
    (himp : ∀ t, p t → q t) :
    c.Everywhere q := by
  induction h with
  | single h => exact .single (himp _ h)
  | group _ ih => exact .group ih

end Criteria

/-! ### The data of tests -/

section Tests

variable {s : Source} {title : String}

theorem CountRule.decoder_name (r : CountRule) : CountRule.decoder s (.str r.name) = .ok r := by
  cases r <;> rfl

/-- A test of a path comes back from its data, field by field. -/
theorem PathTest.decoder_data (t : PathTest) :
    PathTest.record.decoder title false s (Node.ofValue t.data) = .ok t := by
  refine Record.decoder_obj rfl fun missing => ?_
  refine Record.read_seq (Record.read_seq
    (Record.read_seq (Record.read_seq (Record.read_map ?path) ?rule) ?count)
    ?added) ?removed
  case path => exact Record.read_named rfl rfl
  case rule => exact Record.read_named rfl t.countRule.decoder_name
  case count => exact Record.read_named rfl (Decoder.count_ofUInt64 _)
  case added => exact Record.read_named rfl (Decoder.count_ofUInt64 _)
  case removed => exact Record.read_named rfl (Decoder.count_ofUInt64 _)

/-- An operator comes back from its data if its values are in the order of their keys. -/
theorem ValueOperator.decoder_data {o : ValueOperator} (h : ∀ v ∈ o.values, v.sorted = v) :
    ValueOperator.decoder s (Node.ofValue o.data) = .ok o := by
  have hread : ∀ v ∈ o.values, Decoder.value s (Node.ofValue v) = .ok v :=
    fun v hv => Decoder.value_ofValue (h v hv)
  cases o with
  | equals v => exact Variant.decoder_obj rfl (Except.map_eq_ok_iff.mpr ⟨v, hread v (.head _), rfl⟩)
  | contains v =>
    exact Variant.decoder_obj rfl (Except.map_eq_ok_iff.mpr ⟨v, hread v (.head _), rfl⟩)
  -- a range has data with two fields, and the others have a value
  | range min max =>
    refine Variant.decoder_obj rfl
      (Variant.within_fields.trans (Record.decoder_obj rfl fun missing => ?_))
    refine Record.read_seq (Record.read_map ?min) ?max
    case min => exact Record.read_named rfl (hread min (.head _))
    case max => exact Record.read_named rfl (hread max (.tail _ (.head _)))

/-- A test of a value comes back from its data. -/
theorem ValueTest.decoder_data {t : ValueTest} (h : ∀ v ∈ t.operator.values, v.sorted = v) :
    ValueTest.record.decoder title false s (Node.ofValue t.data) = .ok t := by
  refine Record.decoder_obj rfl fun missing => ?_
  refine Record.read_seq (Record.read_seq (Record.read_map ?path) ?name) ?operator
  case path => exact Record.read_named rfl rfl
  case name => exact Record.read_named rfl rfl
  case operator => exact Record.read_named rfl (ValueOperator.decoder_data h)

theorem Vision.Rect.decoder_data (r : Vision.Rect) :
    Vision.Rect.decoder s (Node.ofValue r.data) = .ok r := by
  refine Record.decoder_obj rfl fun missing => ?_
  refine Record.read_seq (Record.read_seq (Record.read_seq (Record.read_map ?x) ?y) ?width) ?height
  case x => exact Record.read_named rfl (Decoder.int32_ofInt32 _)
  case y => exact Record.read_named rfl (Decoder.int32_ofInt32 _)
  case width => exact Record.read_named rfl (Decoder.uint32_ofUInt32 _)
  case height => exact Record.read_named rfl (Decoder.uint32_ofUInt32 _)

/-- A query comes back from its data if its threshold is finite. Its texts and its rectangle may be
missing. -/
theorem VisionQuery.decoder_data {q : VisionQuery} (h : q.threshold.isFinite = true) :
    VisionQuery.record.decoder title false s (Node.ofValue q.data) = .ok q := by
  have htext : ∀ o : Option String,
      (Decoder.text).option s (Node.ofValue (.ofOption .str o)) = .ok o :=
    fun o => Decoder.option_ofOption o (fun _ => Value.noConfusion) fun _ => rfl
  refine Record.decoder_obj rfl fun missing => ?_
  refine Record.read_seq (Record.read_seq (Record.read_seq (Record.read_map ?text) ?image) ?rect)
    ?threshold
  case text => exact Record.read_named rfl (htext _)
  case image => exact Record.read_named rfl (htext _)
  case rect =>
    exact Record.read_named rfl
      (Decoder.option_ofOption _ (fun _ => Value.noConfusion) Vision.Rect.decoder_data)
  case threshold => exact Record.read_named rfl (Decoder.single_ofSingle h)

/-- A wait for validations comes back if its timeout is finite. -/
theorem Test.validations_decoder_data {timeout : Float} (h : timeout.isFinite = true) :
    validationsRecord.decoder title false s (Node.ofValue (validations timeout).data) =
      .ok (validations timeout) :=
  Record.decoder_obj rfl fun _ => Record.read_map (Record.read_named rfl (Decoder.float_ofFloat h))

/-- A test by a predicate comes back if its arguments are in the order of their keys. -/
theorem Test.custom_decoder_data {predicate : String} {args : Value} (h : args.sorted = args) :
    customRecord.decoder title false s (Node.ofValue (custom predicate args).data) =
      .ok (custom predicate args) := by
  refine Record.decoder_obj rfl fun missing => ?_
  refine Record.read_seq (Record.read_map ?name) ?args
  case name => exact Record.read_named rfl rfl
  case args => exact Record.read_named rfl (Decoder.value_ofValue h)

end Tests

/-! ### Data in the order of the keys -/

/-- The data of a test of a path has its fields in the order of the keys. -/
theorem PathTest.sorted_data (t : PathTest) : t.data.sorted = t.data := by
  have hkeys : ["addedCount", "count", "countRule", "path", "removedCount"].Pairwise (· < ·) := by
    decide
  refine Node.sorted_obj (Fields.ordered_of_keys _ rfl hkeys) ?_
  simp only [Value.sortedFields, Value.sorted]

/-- So has that of an operator, if its values do. -/
theorem ValueOperator.sorted_data {o : ValueOperator} (h : ∀ v ∈ o.values, v.sorted = v) :
    o.data.sorted = o.data := by
  cases o with
  | equals v =>
    refine Node.sorted_obj (List.pairwise_singleton ..) ?_
    simp only [Value.sortedFields, h v (.head _)]
  | contains v =>
    refine Node.sorted_obj (List.pairwise_singleton ..) ?_
    simp only [Value.sortedFields, h v (.head _)]
  -- the one form with fields, and these are in order, too
  | range min max =>
    have hkeys : ["max", "min"].Pairwise (· < ·) := by decide
    have hrange : (Value.obj [("max", max), ("min", min)]).sorted =
        .obj [("max", max), ("min", min)] := by
      refine Node.sorted_obj (Fields.ordered_of_keys _ rfl hkeys) ?_
      simp only [Value.sortedFields, h min (.head _), h max (.tail _ (.head _))]
    refine Node.sorted_obj (List.pairwise_singleton ..) ?_
    simp only [Value.sortedFields, hrange]

theorem ValueTest.sorted_data {t : ValueTest} (h : ∀ v ∈ t.operator.values, v.sorted = v) :
    t.data.sorted = t.data := by
  have hkeys : ["attribute", "operator", "path"].Pairwise (· < ·) := by decide
  refine Node.sorted_obj (Fields.ordered_of_keys _ rfl hkeys) ?_
  simp only [Value.sortedFields, Value.sorted, ValueOperator.sorted_data h]

theorem Vision.Rect.sorted_data (r : Vision.Rect) : r.data.sorted = r.data := by
  have hkeys : ["height", "width", "x", "y"].Pairwise (· < ·) := by decide
  refine Node.sorted_obj (Fields.ordered_of_keys _ rfl hkeys) ?_
  simp only [Value.sortedFields, Value.sorted]

theorem VisionQuery.sorted_data (q : VisionQuery) : q.data.sorted = q.data := by
  have hkeys : ["imageQuery", "textQuery", "threshold", "withinRect"].Pairwise (· < ·) := by decide
  have htext : ∀ o : Option String, (Value.ofOption .str o).sorted = Value.ofOption .str o :=
    fun o => Value.sorted_ofOption fun text => by simp only [Value.sorted]
  have hrect : (Value.ofOption Vision.Rect.data q.withinRect).sorted =
      .ofOption Vision.Rect.data q.withinRect :=
    Value.sorted_ofOption Vision.Rect.sorted_data
  have hthreshold : (Value.ofSingle q.threshold).sorted = .ofSingle q.threshold :=
    Value.sorted_ofFloat _
  refine Node.sorted_obj (Fields.ordered_of_keys _ rfl hkeys) ?_
  simp only [Value.sortedFields, htext, hrect, hthreshold]

/-- **The data of any test is in the order of the keys**, if the values in it are. -/
theorem Test.sorted_data {t : Test} (h : t.ValuesOrdered) : t.data.sorted = t.data := by
  cases t with
  | void => simp only [data, Value.sorted]
  | path isPartial t => exact t.sorted_data
  | value t => exact ValueTest.sorted_data h
  | vision kind q => exact q.sorted_data
  | validations timeout =>
    refine Node.sorted_obj (List.pairwise_singleton ..) ?_
    simp only [Value.sortedFields, Value.sorted_ofFloat]
  | actionComplete => simp only [data, Value.sorted]
  -- the arguments are sorted already, by what is assumed of values
  | custom predicate args =>
    have hkeys : ["args", "name"].Pairwise (· < ·) := by decide
    have hargs : args.sorted = args := h
    refine Node.sorted_obj (Fields.ordered_of_keys _ rfl hkeys) ?_
    simp only [Value.sortedFields, Value.sorted, hargs]

namespace Criteria

/-- A criteria as it stands among the members of a group. -/
def memberValue (c : Criteria) : Value :=
  .obj [("apiVersion", .int (.ofUInt32 c.apiVersion)), ("data", c.data),
    ("transient", .bool c.isTransient), ("type", .str c.kind.name)]

/-- The members of a group are written one by one. -/
theorem membersData_eq_map (cs : List Criteria) : membersData cs = cs.map memberValue := by
  induction cs with
  | nil =>
    unfold membersData
    rfl
  | cons c cs ih =>
    unfold membersData
    rw [ih]
    rfl

/-- A member is written in the order of the keys if its data is. -/
theorem sorted_memberValue {c : Criteria} (h : c.data.sorted = c.data) :
    c.memberValue.sorted = c.memberValue := by
  have hkeys : ["apiVersion", "data", "transient", "type"].Pairwise (· < ·) := by decide
  refine Node.sorted_obj (Fields.ordered_of_keys _ rfl hkeys) ?_
  simp only [Value.sortedFields, Value.sorted, h]

/-- **The data of any criteria is in the order of the keys**, if the values in all tests are. -/
theorem sorted_data {c : Criteria} (h : c.Everywhere Test.ValuesOrdered) :
    c.data.sorted = c.data := by
  induction h with
  | single h =>
    unfold data
    exact Test.sorted_data h
  -- the list in the data is in order, since every member is
  | @group v t join members h ih =>
    have hmembers : Value.sortedItems (members.map memberValue) = members.map memberValue :=
      Value.sortedItems_eq fun v hv => by
        obtain ⟨c, hc, rfl⟩ := List.mem_map.mp hv
        exact sorted_memberValue (ih c hc)
    unfold data
    rw [membersData_eq_map]
    refine Node.sorted_obj (List.pairwise_singleton ..) ?_
    simp only [Value.sortedFields, Value.sorted, hmembers]

/-- The data of a member lies three deeper than that of its group: it stands in an object, in the
list, in the data. -/
theorem depth_data_member {v : Version} {t : Bool} {join : Join} {members : List Criteria}
    {c : Criteria} (hc : c ∈ members) : c.data.depth + 3 ≤ (group v t join members).data.depth := by
  have hmember : c.data.depth + 1 ≤ c.memberValue.depth := by
    simp only [memberValue, Value.depth, Value.depthFields]
    omega
  have hitems : c.memberValue.depth ≤ Value.depthItems (members.map memberValue) :=
    Value.depth_le_depthItems (List.mem_map_of_mem hc)
  simp only [data, membersData_eq_map, Value.depth, Value.depthFields]
  omega

/-! ### Criteria -/

/-- A criteria with its data as a value. -/
def raw (c : Criteria) : Raw := ⟨c.kind.name, c.apiVersion, c.isTransient, c.data⟩

variable {s : Source} {c : Criteria}

/-- The order of the fields does not matter. -/
theorem Raw.read_fields {offer : Offer} {i j k l : Nat}
    (htype : offer.find "type" = some (i, .str c.kind.name))
    (hversion : offer.find "apiVersion" = some (j, .int (.ofUInt32 c.apiVersion)))
    (htransient : offer.find "transient" = some (k, .bool c.isTransient))
    (hdata : offer.find "data" = some (l, Node.ofValue c.data)) (h : c.data.sorted = c.data) :
    Raw.record.read offer = .ok c.raw := by
  refine Record.read_seq (Record.read_seq (Record.read_seq (Record.read_map ?type) ?version)
    ?transient) ?data
  case type => exact Record.read_named htype rfl
  case version => exact Record.read_named hversion (Decoder.uint32_ofUInt32 _)
  case transient => exact Record.read_named htransient rfl
  case data => exact Record.read_named hdata (Decoder.value_ofValue h)

/-- A criteria that is written by itself is read up to its data. -/
theorem Raw.decoder_toValue (h : c.data.sorted = c.data) :
    Raw.decoder s (Node.ofValue c.toValue) = .ok c.raw :=
  Record.decoder_obj rfl fun _ => read_fields rfl rfl rfl rfl h

/-- So is one among the members of a group. -/
theorem Raw.decoder_memberValue (h : c.data.sorted = c.data) :
    Raw.decoder s (Node.ofValue c.memberValue) = .ok c.raw :=
  Record.decoder_obj rfl fun _ => read_fields rfl rfl rfl rfl h

/-- **The data of a test is understood** as the test that it was written from. -/
theorem ofRaw_single {member : Decoder Criteria} {v : Version} {t : Bool} {test : Test}
    (h : test.Kept) :
    ofRaw member (single v t test).raw = .ok (single v t test) := by
  have hkind : CriteriaKind.ofName? (single v t test).raw.type = some test.kind :=
    CriteriaKind.ofName?_name _
  obtain ⟨hthreshold, htimeout, hvalues⟩ := h
  unfold ofRaw
  rw [hkind]
  dsimp only [raw, data, apiVersion, isTransient, Decoder.ofValue]
  -- test by test, and for a path and for vision by the two or three kinds that share the data
  cases test with
  | void => rfl
  | path isPartial t =>
    cases isPartial
    all_goals
      dsimp only [Test.kind, Test.data]
      rw [t.decoder_data]
  | value t =>
    dsimp only [Test.kind, Test.data]
    rw [ValueTest.decoder_data hvalues]
  | vision kind q =>
    cases kind
    all_goals
      dsimp only [Test.kind, Test.data]
      rw [VisionQuery.decoder_data hthreshold]
  | validations timeout =>
    -- the data is an object, so the timeout does not come from the default for no data
    dsimp only [Test.kind]
    rw [Test.validations_decoder_data htimeout]
    rfl
  | actionComplete => rfl
  | custom predicate args =>
    dsimp only [Test.kind]
    rw [Test.custom_decoder_data hvalues]

/-- **The data of a group is understood** if its members are read. -/
theorem ofRaw_group {member : Decoder Criteria} {v : Version} {t : Bool} {join : Join}
    {members : List Criteria}
    (h : ∀ c ∈ members, member .value (Node.ofValue c.memberValue) = .ok c) :
    ofRaw member (group v t join members).raw = .ok (group v t join members) := by
  have hkind : CriteriaKind.ofName? (group v t join members).raw.type = some join.kind :=
    CriteriaKind.ofName?_name _
  have hmembers : (membersRecord member).decoder "struct CriteriaListData" false .value
      (Node.ofValue (.obj [("criteriaList", .arr (members.map memberValue))])) = .ok members :=
    Record.decoder_obj rfl fun _ => Record.read_map (Record.read_named rfl (Decoder.list_ofItems h))
  unfold ofRaw
  rw [hkind]
  dsimp only [raw, data, apiVersion, isTransient, Decoder.ofValue]
  rw [membersData_eq_map]
  -- the join is in the data only by the name of its kind
  cases join
  all_goals
    dsimp only [Join.kind]
    rw [hmembers]

/-- **The data of a criteria is understood as what it was written from**, if the bound leaves room
for its depth. -/
theorem ofRaw_raw {depth : Nat} (h : c.Everywhere Test.Kept) (hdepth : c.data.depth ≤ depth) :
    ofRaw (within depth) c.raw = .ok c := by
  induction depth using Nat.strongRecOn generalizing c with
  | ind depth ih =>
  cases h with
  | single h => exact ofRaw_single h
  | @group v t join members h =>
    -- the bound is on the depth of the data, and a member lies deep enough in it for its own
    refine ofRaw_group fun c hc => ?_
    have hroom : c.data.depth + 3 ≤ depth := Nat.le_trans (depth_data_member hc) hdepth
    have hsorted : c.data.sorted = c.data := sorted_data ((h c hc).imp fun _ hkept => hkept.values)
    obtain ⟨d, rfl⟩ : ∃ d, depth = d + 1 := ⟨depth - 1, by omega⟩
    have hread : ofRaw (within d) c.raw = .ok c := ih d (Nat.lt_succ_self d) (h c hc) (by omega)
    refine Decoder.andThen_eq_ok_iff.mpr ⟨c.raw, Raw.decoder_memberValue hsorted, ?_⟩
    exact Except.mapError_eq_ok_iff.mpr hread

/-- A criteria that can be kept comes back when it is read as a whole. -/
theorem decoder_toValue (h : c.Everywhere Test.Kept) :
    decoder s (Node.ofValue c.toValue) = .ok c := by
  have hsorted : c.data.sorted = c.data := sorted_data (h.imp fun _ hkept => hkept.values)
  refine Decoder.andThen_eq_ok_iff.mpr ⟨c.raw, Raw.decoder_toValue hsorted, ?_⟩
  exact Except.mapError_eq_ok_iff.mpr (ofRaw_raw h (Nat.le_refl _))

end Criteria

/-! ### What has been read -/

section Tests

variable {s : Source} {n : Node} {title : String}

/-- The values of an operator that was read are in the order of their keys, as all values that are
read. -/
theorem ValueOperator.sorted_of_decoder {o : ValueOperator}
    (h : ValueOperator.decoder s n = .ok o) :
    ∀ v ∈ o.values, v.sorted = v := by
  obtain ⟨form, hform, h⟩ := Variant.of_decoder h
  simp only [List.mem_cons, List.not_mem_nil, or_false] at hform
  -- no form is a bare name
  obtain rfl | rfl | rfl := hform
  · obtain hbare | ⟨node, h⟩ := h
    · nomatch hbare
    · obtain ⟨v, hv, rfl⟩ := Except.map_eq_ok_iff.mp h
      exact List.forall_mem_singleton.mpr (Decoder.sorted_of_value hv)
  · obtain hbare | ⟨node, h⟩ := h
    · nomatch hbare
    · obtain ⟨v, hv, rfl⟩ := Except.map_eq_ok_iff.mp h
      exact List.forall_mem_singleton.mpr (Decoder.sorted_of_value hv)
  · obtain hbare | ⟨node, h⟩ := h
    · nomatch hbare
    · obtain ⟨offer, -, h⟩ := Variant.of_within_fields h
      obtain ⟨range, max, hrange, hmax, rfl⟩ := Record.of_read_seq h
      obtain ⟨min, hmin, rfl⟩ := Record.of_read_map hrange
      obtain ⟨_, _, -, hmin⟩ := Record.of_read_field hmin
      obtain ⟨_, _, -, hmax⟩ := Record.of_read_field hmax
      exact List.forall_mem_cons.mpr
        ⟨Decoder.sorted_of_value hmin, List.forall_mem_singleton.mpr (Decoder.sorted_of_value hmax)⟩

/-- So are those of a test of a value. -/
theorem ValueTest.sorted_of_decoder {t : ValueTest}
    (h : ValueTest.record.decoder title false s n = .ok t) :
      ∀ v ∈ t.operator.values, v.sorted = v := by
  obtain ⟨offer, -, hread⟩ := Record.of_decoder h
  obtain ⟨_, operator, hothers, hoperator, rfl⟩ := Record.of_read_seq hread
  obtain ⟨_, name, hpath, -, rfl⟩ := Record.of_read_seq hothers
  obtain ⟨path, -, rfl⟩ := Record.of_read_map hpath
  obtain ⟨_, _, -, hoperator⟩ := Record.of_read_field hoperator
  exact ValueOperator.sorted_of_decoder hoperator

/-- A timeout that was read is finite, and so is the one that stands for none. -/
theorem Test.of_validations_decoder {t : Test}
    (h : validationsRecord.decoder title false s n = .ok t) :
    ∃ timeout : Float, timeout.isFinite = true ∧ t = .validations timeout := by
  obtain ⟨offer, -, hread⟩ := Record.of_decoder h
  obtain ⟨timeout, htimeout, rfl⟩ := Record.of_read_map hread
  refine ⟨timeout, ?_, rfl⟩
  obtain ⟨_, htimeout⟩ | rfl := Record.of_read_fieldOr htimeout
  · exact Decoder.isFinite_of_float htimeout
  · decide

/-- Arguments that were read are in the order of their keys, and so is `null`, which stands for
none. -/
theorem Test.of_custom_decoder {t : Test} (h : customRecord.decoder title false s n = .ok t) :
    ∃ (predicate : String) (args : Value), args.sorted = args ∧ t = .custom predicate args := by
  obtain ⟨offer, -, hread⟩ := Record.of_decoder h
  obtain ⟨_, args, hname, hargs, rfl⟩ := Record.of_read_seq hread
  obtain ⟨predicate, -, rfl⟩ := Record.of_read_map hname
  refine ⟨predicate, args, ?_, rfl⟩
  obtain ⟨_, hargs⟩ | rfl := Record.of_read_fieldOr hargs
  · exact Decoder.sorted_of_value hargs
  · simp only [Value.sorted]

/-- The members of a group have been read one by one. -/
theorem Criteria.of_members_decoder {member : Decoder Criteria} {cs : List Criteria}
    (h : (membersRecord member).decoder title false s n = .ok cs) :
      ∀ c ∈ cs, ∃ n, member s n = .ok c := by
  obtain ⟨offer, rfl, hread⟩ := Record.of_decoder h
  obtain ⟨members, hmembers, rfl⟩ := Record.of_read_map hread
  obtain ⟨_, hmembers⟩ | rfl := Record.of_read_fieldOr hmembers
  · exact Decoder.of_list hmembers
  · exact fun c hc => nomatch hc

end Tests

namespace Criteria

variable {s : Source} {n : Node} {c : Criteria}

/-- What is made of data that was read was made of what was read. -/
theorem of_understood {α : Type} {x : Except DecodeError α} {make : α → Criteria}
    {blame : DecodeError → DocumentError}
    (h : (match x with
      | .ok a => .ok (make a)
      | .error e => .error (blame e)) = Except.ok c) : ∃ a, x = .ok a ∧ make a = c := by
  cases x with
  | error e => cases h
  | ok a => exact ⟨a, rfl, Except.ok.inj h⟩

/-- **What is understood can be written**, if the members that are read can. -/
theorem everywhere_of_ofRaw {member : Decoder Criteria} {raw : Raw} (h : ofRaw member raw = .ok c)
    (hmember : ∀ n c, member .value n = .ok c →
      c.Everywhere fun t => t.TimeoutFinite ∧ t.ValuesOrdered) :
    c.Everywhere fun t => t.TimeoutFinite ∧ t.ValuesOrdered := by
  -- a wait without data has no timeout, which is written as zero
  have hzero : (0.0 : Float).isFinite = true := by decide
  have hgroup : ∀ {title : String} {cs : List Criteria},
      (membersRecord member).decoder title false .value (Node.ofValue raw.data) = .ok cs →
      ∀ c ∈ cs, c.Everywhere fun t => t.TimeoutFinite ∧ t.ValuesOrdered := by
    intro title cs hread c hc
    obtain ⟨n, hn⟩ := of_members_decoder hread c hc
    exact hmember n c hn
  unfold ofRaw at h
  split at h
  · split at h <;> cases h
  next kind _ =>
  cases kind
  all_goals dsimp only at h
  -- kind by kind: nothing to show for most, the values and the timeout for three, and the members
  -- for groups
  case void | actionComplete =>
    cases h
    exact .single ⟨trivial, trivial⟩
  case normalizedPath | partialNormalizedPath | cvText | cvImage | cvObjectDetection =>
    obtain ⟨t, -, rfl⟩ := of_understood h
    exact .single ⟨trivial, trivial⟩
  case value =>
    obtain ⟨t, ht, rfl⟩ := of_understood h
    exact .single ⟨trivial, ValueTest.sorted_of_decoder ht⟩
  case validationsComplete =>
    split at h
    · cases h
      exact .single ⟨hzero, trivial⟩
    · obtain ⟨t, ht, rfl⟩ := of_understood h
      obtain ⟨timeout, htimeout, rfl⟩ := Test.of_validations_decoder ht
      exact .single ⟨htimeout, trivial⟩
  case and | or =>
    obtain ⟨cs, hcs, rfl⟩ := of_understood h
    exact .group (hgroup hcs)
  case custom =>
    obtain ⟨t, ht, rfl⟩ := of_understood h
    obtain ⟨predicate, args, hargs, rfl⟩ := Test.of_custom_decoder ht
    exact .single ⟨trivial, hargs⟩

/-- What is read at some depth can be written. -/
theorem everywhere_of_within {depth : Nat} (h : within depth s n = .ok c) :
    c.Everywhere fun t => t.TimeoutFinite ∧ t.ValuesOrdered := by
  induction depth generalizing s n c with
  -- no room is left, so nothing was read
  | zero =>
    dsimp only [within, Node.unexpected] at h
    split at h <;> cases h
  | succ depth ih =>
    obtain ⟨raw, -, h⟩ := Decoder.andThen_eq_ok_iff.mp h
    exact everywhere_of_ofRaw (Except.mapError_eq_ok_iff.mp h) fun n c hc => ih hc

/-- **Whatever was read can be written**, but for thresholds that came out too large. -/
theorem everywhere_of_decoder (h : decoder s n = .ok c) :
    c.Everywhere fun t => t.TimeoutFinite ∧ t.ValuesOrdered := by
  obtain ⟨raw, -, h⟩ := Decoder.andThen_eq_ok_iff.mp h
  exact everywhere_of_ofRaw (Except.mapError_eq_ok_iff.mp h) fun n c hc => everywhere_of_within hc

/-- **Criteria come back from documents**, both those that were built and those that were read. -/
theorem reads_back :
    (∀ c : Criteria, c.Everywhere Test.ThresholdFinite → c.Everywhere Test.TimeoutFinite →
      c.Everywhere Test.ValuesOrdered → ∀ s, decoder s (Node.ofValue c.toValue) = .ok c) ∧
    ∀ s n c, decoder s n = .ok c → c.Everywhere Test.ThresholdFinite →
      ∀ s', decoder s' (Node.ofValue c.toValue) = .ok c := by
  constructor
  · intro c hthreshold htimeout hvalues s
    -- the three conditions of a test, each of them everywhere, are one condition everywhere
    exact decoder_toValue (((hthreshold.and htimeout).and hvalues).imp fun _ h =>
      ⟨h.1.1, h.1.2, h.2⟩)
  · intro s n c hread hthreshold s'
    have hrest := everywhere_of_decoder hread
    exact decoder_toValue ((hthreshold.and hrest).imp fun _ h => ⟨h.1, h.2.1, h.2.2⟩)

/-- Tests of three kinds at two depths come back, and so does what a type in small letters without
data stands for. -/
theorem group_reads_back :
    (let query : VisionQuery := ⟨some "Play", none, some ⟨-1, 0, 640, 480⟩, 0.75⟩
     let args : Value := .obj [("any", .arr [.null, .bool true]), ("of", .str "these")]
     let c := ofGroup .any [of (.vision .text query),
         ofGroup .all [of (.validations 1.5), of (.custom "seen" args)]]
     decoder .text (Node.ofValue c.toValue) = .ok c) ∧
    decoder .value (Node.ofValue (of (.validations 0.0)).toValue) =
      .ok (of (.validations 0.0)) := by
  have hthreshold : (0.75 : Float32).isFinite = true := by decide
  have htimeout : (1.5 : Float).isFinite = true := by decide
  constructor
  · intro query args c
    have heach : ∀ {p : Test → Prop}, p (.vision .text query) → p (.validations 1.5) →
        p (.custom "seen" args) → c.Everywhere p := by
      intro p hvision hvalidations hcustom
      have hinner : Everywhere p (ofGroup .all [of (.validations 1.5), of (.custom "seen" args)]) :=
        .group (List.forall_mem_cons.mpr ⟨.single hvalidations,
          List.forall_mem_singleton.mpr (.single hcustom)⟩)
      exact .group (List.forall_mem_cons.mpr ⟨.single hvision,
        List.forall_mem_singleton.mpr hinner⟩)
    exact reads_back.1 c (heach hthreshold trivial trivial) (heach trivial htimeout trivial)
      (heach trivial trivial rfl) .text
  · -- there is no data beside the type and the version
    have hread : decoder .text
        (.obj [(.ok "type", .str "validationscomplete"),
          (.ok "apiVersion", .int (.ofUInt32 12))] none) =
        .ok (of (.validations 0.0)) := rfl
    exact reads_back.2 _ _ _ hread (.single trivial) .value

end Criteria

end Playtest
