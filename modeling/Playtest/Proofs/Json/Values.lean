import Playtest.Json.Decode
import Playtest.Proofs.Failing

/-!
# Values and their nodes

A value is read from its own node as the value with the fields of its objects in the order of their
keys (`Node.toValue_ofValue`), and whatever is read as a value has its fields in that order already
(`Node.sorted_of_toValue`). So reading and writing values back and forth comes to rest after the
first time.
-/

namespace Playtest.Json

/-! ### Fields in order -/

namespace Fields

variable {fields : Fields} {key : String} {value : Value}

/-- Fields are **in order** if each key is less than the ones behind it. -/
def Ordered (fields : Fields) : Prop := fields.Pairwise fun a b => a.1 < b.1

/-- Fields are in order if the list of their keys is. -/
theorem ordered_of_keys (keys : List String) (hkeys : fields.map Prod.fst = keys)
    (h : keys.Pairwise (· < ·)) : fields.Ordered := by
  subst hkeys
  exact List.pairwise_map.mp h

/-- What stands among fields after one was put there was there before, or is that one. -/
theorem mem_insert {field : String × Value} (h : field ∈ insert key value fields) :
    field = (key, value) ∨ field ∈ fields := by
  induction fields with
  | nil => exact .inl (List.mem_singleton.mp h)
  | cons first rest ih =>
    unfold insert at h
    -- put in front, or in place of the first one, or further behind
    split at h
    · exact List.mem_cons.mp h
    split at h
    · exact (List.mem_cons.mp h).imp_right (List.mem_cons_of_mem _)
    · rcases List.mem_cons.mp h with rfl | h
      · exact .inr List.mem_cons_self
      · exact (ih h).imp_right (List.mem_cons_of_mem _)

/-- Putting a field where it belongs keeps fields in order. -/
theorem Ordered.insert (h : Ordered fields) : Ordered (insert key value fields) := by
  induction fields with
  | nil => exact List.pairwise_singleton ..
  | cons first rest ih =>
    obtain ⟨hfirst, hrest⟩ := List.pairwise_cons.mp h
    unfold Fields.insert
    split
    · -- it belongs in front of all of them
      next hlt =>
      refine List.pairwise_cons.mpr ⟨fun field hf => ?_, h⟩
      rcases List.mem_cons.mp hf with rfl | hf
      · exact hlt
      · exact String.lt_trans hlt (hfirst field hf)
    split
    · next heq => exact List.pairwise_cons.mpr ⟨fun field hf => heq ▸ hfirst field hf, hrest⟩
    · next hlt hne =>
      -- keys that are neither less nor the same are greater
      refine List.pairwise_cons.mpr ⟨fun field hf => ?_, ih hrest⟩
      rcases mem_insert hf with rfl | hf
      · exact Classical.byContradiction fun hle => hne (String.le_antisymm hle hlt)
      · exact hfirst field hf

/-- A key behind all others is put at the end. -/
theorem insert_of_forall_lt (h : ∀ field ∈ fields, field.1 < key) :
    insert key value fields = fields ++ [(key, value)] := by
  induction fields with
  | nil => rfl
  | cons first rest ih =>
    rw [List.forall_mem_cons] at h
    have hne : ¬ key = first.1 := fun heq => String.lt_irrefl key (heq ▸ h.1)
    unfold insert
    rw [if_neg (String.lt_asymm h.1), if_neg hne, ih h.2]
    rfl

/-- Fields that come in order are put behind each other. -/
theorem foldl_insert_of_ordered {behind : Fields} (h : Ordered (fields ++ behind)) :
    behind.foldl (fun acc field => insert field.1 field.2 acc) fields = fields ++ behind := by
  induction behind generalizing fields with
  | nil => exact (List.append_nil fields).symm
  | cons first rest ih =>
    obtain ⟨-, -, hlt⟩ := List.pairwise_append.mp h
    rw [List.foldl_cons, insert_of_forall_lt fun field hf => hlt field hf first List.mem_cons_self]
    rw [show fields ++ first :: rest = fields ++ [first] ++ rest by simp] at h ⊢
    exact ih h

/-- **Fields in order stay as they are.** -/
theorem Ordered.ofList_eq (h : Ordered fields) : ofList fields = fields := by
  have hbehind : Ordered ([] ++ fields) := h
  exact foldl_insert_of_ordered hbehind

end Fields

/-! ### Values in order -/

namespace Value

theorem sorted_ofFloat (x : Float) : (ofFloat x).sorted = ofFloat x := by
  unfold ofFloat
  split <;> simp only [sorted]

/-- Items are in order if each of them is. -/
theorem sortedItems_eq {vs : List Value} (h : ∀ v ∈ vs, v.sorted = v) : sortedItems vs = vs := by
  induction vs with
  | nil => simp only [sortedItems]
  | cons v vs ih =>
    rw [List.forall_mem_cons] at h
    simp only [sortedItems, h.1, ih h.2]

/-- No item is nested deeper than the items as a whole. -/
theorem depth_le_depthItems {v : Value} {vs : List Value} (h : v ∈ vs) :
    v.depth ≤ depthItems vs := by
  induction vs with
  | nil => cases h
  | cons first rest ih =>
    unfold depthItems
    rcases List.mem_cons.mp h with rfl | h
    · exact Nat.le_max_left ..
    · exact Nat.le_trans (ih h) (Nat.le_max_right ..)

/-- What may be missing is in order if it is whenever it is there. -/
theorem sorted_ofOption {α : Type} {write : α → Value} {o : Option α}
    (h : ∀ a, (write a).sorted = write a) :
    (ofOption write o).sorted = ofOption write o := by
  cases o with
  | none => simp only [ofOption, sorted]
  | some a => exact h a

end Value

/-! ### Nodes of values -/

namespace Node

open Value

mutual

/-- **A value is read from its node**, with its fields in order. -/
theorem toValue_ofValue : ∀ v : Value, toValue (ofValue v) = .ok v.sorted
  | .null | .bool _ | .int _ | .real _ | .str _ => by
    simp only [ofValue, toValue, sorted]
  | .arr items => by
    have hitems := itemsToValues_ofItems items
    simp only [ofValue, toValue, sorted, hitems]
    rfl
  | .obj fields => by
    have hfields := fieldsToValues_ofFields fields []
    simp only [ofValue, toValue, sorted, hfields]
    rfl

/-- Items are read one by one. -/
theorem itemsToValues_ofItems : ∀ vs : List Value, itemsToValues (ofItems vs) = .ok (sortedItems vs)
  | [] => by
    simp only [ofItems, itemsToValues, sortedItems]
  | v :: vs => by
    have hfirst := toValue_ofValue v
    have hrest := itemsToValues_ofItems vs
    simp only [ofItems, itemsToValues, sortedItems, hfirst, hrest]
    rfl

/-- Fields are read one by one, and each is put where its key belongs. -/
theorem fieldsToValues_ofFields : ∀ (fields : List (String × Value)) (acc : Fields),
    fieldsToValues (ofFields fields) acc =
      .ok ((sortedFields fields).foldl (fun acc field => Fields.insert field.1 field.2 acc) acc)
  | [], acc => by
    simp only [ofFields, fieldsToValues, sortedFields, List.foldl_nil]
  | (k, v) :: rest, acc => by
    have hfirst := toValue_ofValue v
    have hrest := fieldsToValues_ofFields rest (Fields.insert k v.sorted acc)
    simp only [ofFields, fieldsToValues, sortedFields, List.foldl_cons, hfirst]
    exact hrest

end

/-- A value whose fields are in order is read as it is. -/
theorem toValue_ofValue_of_sorted {v : Value} (h : v.sorted = v) : toValue (ofValue v) = .ok v := by
  rw [toValue_ofValue, h]

/-- An object is in order if its fields are, and if the values in them are. -/
theorem sorted_obj {fields : Fields} (ho : fields.Ordered) (hs : sortedFields fields = fields) :
    (Value.obj fields).sorted = .obj fields := by
  unfold sorted
  rw [hs, ho.ofList_eq]

/-- Putting a field with a value in order among others like it keeps all values in order. -/
theorem sortedFields_insert {fields : Fields} {key : String} {value : Value}
    (hv : value.sorted = value) (h : sortedFields fields = fields) :
    sortedFields (Fields.insert key value fields) = Fields.insert key value fields := by
  induction fields with
  | nil => simp only [Fields.insert, sortedFields, hv]
  | cons first rest ih =>
    obtain ⟨k, v⟩ := first
    simp only [sortedFields, List.cons.injEq, Prod.mk.injEq, true_and] at h
    unfold Fields.insert
    -- in front of the first one, in its place, or somewhere behind it
    split
    · simp only [sortedFields, hv, h.1, h.2]
    split
    · simp only [sortedFields, hv, h.2]
    · simp only [sortedFields, h.1, ih h.2]

mutual

/-- **What is read as a value has its fields in order.** -/
theorem sorted_of_toValue : ∀ (n : Node) {v : Value}, toValue n = .ok v → v.sorted = v
  | .null, v, h | .bool _, v, h | .int _, v, h | .real _, v, h | .str _, v, h => by
    unfold toValue at h
    cases h
    unfold sorted
    rfl
  | .flawed _, v, h | .broken _ _, v, h | .deep _ _, v, h => by
    unfold toValue at h
    cases h
  | .arr items unfinished, v, h => by
    unfold toValue at h
    obtain ⟨values, hvalues, h⟩ := Except.bind_eq_ok_iff.mp h
    -- an array that breaks off is no value
    have hsorted := sortedItems_of_itemsToValues items hvalues
    split at h
    · cases h
    · cases h
      unfold sorted
      rw [hsorted]
  | .obj fields unfinished, v, h => by
    unfold toValue at h
    obtain ⟨values, hvalues, h⟩ := Except.bind_eq_ok_iff.mp h
    obtain ⟨hordered, hsorted⟩ :=
      sortedFields_of_fieldsToValues fields List.Pairwise.nil rfl hvalues
    split at h
    · cases h
    · cases h
      exact sorted_obj hordered hsorted

/-- Items that were read are in order, each by itself. -/
theorem sortedItems_of_itemsToValues : ∀ (ns : List Node) {vs : List Value},
    itemsToValues ns = .ok vs → sortedItems vs = vs
  | [], vs, h => by
    unfold itemsToValues at h
    cases h
    rfl
  | n :: ns, vs, h => by
    unfold itemsToValues at h
    -- the first item, and then the rest
    obtain ⟨v, hv, h⟩ := Except.bind_eq_ok_iff.mp h
    obtain ⟨rest, hrest, h⟩ := Except.bind_eq_ok_iff.mp h
    cases h
    unfold sortedItems
    rw [sorted_of_toValue n hv, sortedItems_of_itemsToValues ns hrest]

/-- Fields that were read are put among those in order, and so are in order themselves. -/
theorem sortedFields_of_fieldsToValues : ∀ (fs : List (Except Fault String × Node))
    {acc fields : Fields},
    acc.Ordered → sortedFields acc = acc → fieldsToValues fs acc = .ok fields →
      fields.Ordered ∧ sortedFields fields = fields
  | [], acc, fields, ho, hs, h => by
    unfold fieldsToValues at h
    cases h
    exact ⟨ho, hs⟩
  | (key, n) :: fs, acc, fields, ho, hs, h => by
    unfold fieldsToValues at h
    -- the field is put among those that are in order already
    obtain ⟨k, -, h⟩ := Except.bind_eq_ok_iff.mp h
    obtain ⟨v, hv, h⟩ := Except.bind_eq_ok_iff.mp h
    exact sortedFields_of_fieldsToValues fs ho.insert
      (sortedFields_insert (sorted_of_toValue n hv) hs) h

end

end Node

end Playtest.Json
