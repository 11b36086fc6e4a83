import Playtest.Json.Decode
import Playtest.Proofs.Json.Tokens
import Playtest.Proofs.Number.Narrowing

/-!
# Values come back from texts

The text of a value is read as one node (`Node.ofText_render`), which is that of the value
(`Value.reread_eq`) but for two things: a container that is nested too deep, and a float, which is
whatever its own text is read as (`Real.reread`).
-/

namespace Playtest.Number

/-- What is finite is a mantissa and an exponent with a sign. -/
theorem exists_unpack_of_isFinite {x : Float} (h : x.isFinite = true) :
    ∃ (negative : Bool) (m : Nat) (q : Int), unpack x = .finite negative m q := by
  unfold unpack Format.unpack
  dsimp only
  split
  · -- not all bits of the exponent are set, which is what would make it infinite or no number
    next hones => exact absurd (beq_iff_eq.mp hones) ((isFinite_double_iff x).mp h)
  · split
    · exact ⟨_, _, _, rfl⟩
    · exact ⟨_, _, _, rfl⟩

/-- A power of ten that is finite is multiplied or divided by in one step. -/
theorem scale?_of_le {bits : Nat} {exponent : Int} (h : exponent.natAbs ≤ greatestPower) :
    scale? bits exponent =
      if exponent < 0 then some (Format.double.divide bits (powerOfTen exponent.natAbs))
      else if
        Format.double.multiply bits (powerOfTen exponent.natAbs) < Format.double.infinityBits
      then some (Format.double.multiply bits (powerOfTen exponent.natAbs))
      else none := by
  unfold scale?
  rw [if_pos h]

end Playtest.Number

namespace Playtest.Json

open Playtest.Number

/-! ### Scalars -/

section Tokens

variable {fuel depth : Nat} {rest : List Char}

theorem skipSpace_cons {c : Char} (hc : isSpace c = false) : skipSpace (c :: rest) = c :: rest :=
  List.dropWhile_cons_of_neg (by rw [hc]; exact Bool.false_ne_true)

theorem ne_of_isDigit {c d : Char} (hc : isDigit c = true) (hd : isDigit d = false) : c ≠ d := by
  rintro rfl
  rw [hc] at hd
  cases hd

/-- A digit is no blank. -/
theorem isSpace_of_isDigit {c : Char} (hc : isDigit c = true) : isSpace c = false := by
  have hne : ∀ d : Char, isDigit d = false → (c == d) = false :=
    fun d hd => beq_eq_false_iff_ne.mpr (ne_of_isDigit hc hd)
  unfold isSpace
  rw [hne ' ' rfl, hne '\n' rfl, hne '\t' rfl, hne '\r' rfl]
  rfl

/-- A value that begins with a digit is a number. -/
theorem readValue_digit {c : Char} (hc : isDigit c = true) :
    readValue (fuel + 1) depth (c :: rest) = readNumber false (c :: rest) := by
  have hne : ∀ d : Char, isDigit d = false → c ≠ d := fun d hd => ne_of_isDigit hc hd
  unfold readValue
  rw [skipSpace_cons (isSpace_of_isDigit hc)]
  dsimp only
  rw [if_neg (hne 'n' rfl), if_neg (hne 't' rfl), if_neg (hne 'f' rfl),
    if_neg (hne '-' rfl), if_pos hc]

theorem readValue_minus : readValue (fuel + 1) depth ('-' :: rest) = readNumber true rest := rfl

theorem stringChars_append (s : String) (cs : List Char) :
    stringChars s ++ cs = '\x22' :: (s.toList.flatMap escapeChar ++ '\x22' :: cs) := by
  unfold stringChars
  rw [List.cons_append, List.cons_append, List.append_assoc]
  rfl

/-- **A string is read as itself**, as a value. -/
theorem readValue_stringChars (s : String) :
    readValue (fuel + 1) depth (stringChars s ++ rest) = (.str s, rest) := by
  have hquote : isSpace '\x22' = false := rfl
  have hdigit : isDigit '\x22' = false := rfl
  rw [stringChars_append]
  simp only [readValue, skipSpace_cons hquote, hdigit, readString_stringChars, Char.reduceEq,
    Bool.false_eq_true, if_false, if_true]

/-- **An integer is read as itself**, as a value. -/
theorem readValue_intChars (n : Integer) (hrest : Ends rest) :
    readValue (fuel + 1) depth (intChars n.val ++ rest) = (.int n, rest) := by
  -- it fits into 64 bits with its sign, so its digits do
  have hsize : n.val.natAbs < UInt64.size := by
    have := n.lower
    have := n.upper
    have : UInt64.size = 0x10000000000000000 := rfl
    omega
  have hfits : Integer.ofInt? n.val = some n := dif_pos ⟨n.lower, n.upper⟩
  unfold intChars
  -- a number with a sign is not zero, which would be read as a float
  by_cases hneg : n.val < 0
  · have hnode : integerNode true n.val.natAbs = .int n := by
      have hnonzero : (n.val.natAbs == 0) = false := beq_eq_false_iff_ne.mpr (by omega)
      have hval : -(n.val.natAbs : Int) = n.val := by omega
      unfold integerNode
      rw [hnonzero, if_neg (by decide), if_pos rfl, hval, hfits]
    rw [if_pos hneg]
    change readValue (fuel + 1) depth ('-' :: (Nat.toDigits 10 n.val.natAbs ++ rest)) = _
    rw [readValue_minus, readNumber_toDigits hsize hrest, hnode]
  · -- without a sign, the first digit is what tells that it is a number
    have hnode : integerNode false n.val.natAbs = .int n := by
      have hval : (n.val.natAbs : Int) = n.val := by omega
      unfold integerNode
      rw [if_neg (by rw [Bool.false_and]; exact Bool.false_ne_true),
        if_neg Bool.false_ne_true, hval, hfits]
    obtain ⟨d, ds, hds⟩ := List.exists_cons_of_ne_nil (Nat.toDigits_ne_nil :
        Nat.toDigits 10 n.val.natAbs ≠ [])
    have hd : isDigit d = true := forall_isDigit_toDigits n.val.natAbs d (hds ▸ .head _)
    have hread : readNumber false (Nat.toDigits 10 n.val.natAbs ++ rest) = _ :=
      readNumber_toDigits hsize hrest
    rw [if_neg hneg, List.nil_append]
    rw [hds, List.cons_append] at hread ⊢
    rw [readValue_digit hd, hread, hnode]

/-! ### Floats -/

/-- The text of a float is a sign, if it has one, and a text that is read as a float. -/
theorem exists_realText (x : Real) : ∃ (negative : Bool) (cs : List Char),
    (realText x).toList = (if negative then ['-'] else []) ++ cs ∧ ReadAsReal negative cs := by
  obtain ⟨negative, m, q, hunpack⟩ := exists_unpack_of_isFinite x.finite
  refine ⟨negative, Layout.json.magnitude .double m q, ?_, readAsReal_magnitude ..⟩
  unfold realText
  rw [hunpack]
  exact String.toList_ofList

/-- The text of a float is read as one number, whatever follows. -/
theorem exists_readValue_realText (x : Real) : ∃ node : Node, node.ending? = none ∧
    ∀ fuel depth rest, Ends rest →
      readValue (fuel + 1) depth ((realText x).toList ++ rest) = (node, rest) := by
  obtain ⟨negative, cs, htext, hreal⟩ := exists_realText x
  obtain ⟨d, ds, rfl, hd⟩ := hreal.head
  obtain ⟨significand, exponent, hread⟩ := hreal
  refine ⟨realNode negative significand exponent, ending?_realNode ..,
    fun fuel depth rest hrest => ?_⟩
  rw [htext, List.append_assoc, ← hread rest hrest]
  -- what follows the sign is the same number
  cases negative with
  | true => exact readValue_minus
  | false => exact readValue_digit hd

end Tokens

/-- The node that the text of a float is read as. -/
def Real.reread (x : Real) : Node := (Node.ofText (realText x)).1

/-- The text of a float is read as what it is read as alone, whatever stands behind it. -/
theorem readValue_realText (x : Real) (fuel depth : Nat) {rest : List Char} (hrest : Ends rest) :
    readValue (fuel + 1) depth ((realText x).toList ++ rest) = (x.reread, rest) := by
  obtain ⟨node, -, hread⟩ := exists_readValue_realText x
  -- what stands alone is read as what it is read as in front of anything else
  have halone : x.reread = node := by
    have := hread (2 * (realText x).toList.length) 0 [] ends_nil
    rw [List.append_nil] at this
    exact congrArg Prod.fst this
  rw [halone]
  exact hread fuel depth rest hrest

/-- Whatever that is, it is read to the end. -/
theorem Real.ending?_reread (x : Real) : x.reread.ending? = none := by
  obtain ⟨node, hnode, hread⟩ := exists_readValue_realText x
  have := hread 0 0 [] ends_nil
  rw [readValue_realText x 0 0 ends_nil] at this
  have heq : x.reread = node := congrArg Prod.fst this
  rw [heq]
  exact hnode

/-! ### Containers -/

mutual

/-- The node that the text of a value is read as inside `depth` containers. -/
def Value.reread (depth : Nat) : Value → Node
  | .null => .null
  | .bool b => .bool b
  | .int n => .int n
  | .real x => x.reread
  | .str s => .str s
  | .arr items => arrayNode depth (Value.rereadItems (depth + 1) items) none
  | .obj fields => objectNode depth (Value.rereadFields (depth + 1) fields) none

/-- The nodes of items. -/
def Value.rereadItems (depth : Nat) : List Value → List Node
  | [] => []
  | v :: vs => v.reread depth :: Value.rereadItems depth vs

/-- The nodes of fields. -/
def Value.rereadFields (depth : Nat) : List (String × Value) → List (Except Fault String × Node)
  | [] => []
  | (k, v) :: vs => (.ok k, v.reread depth) :: Value.rereadFields depth vs

end

/-- The nodes of items are those of the items one by one. -/
theorem Value.rereadItems_eq_map (depth : Nat) (vs : List Value) :
    rereadItems depth vs = vs.map (reread depth) := by
  induction vs with
  | nil => simp only [rereadItems, List.map_nil]
  | cons v vs ih => simp only [rereadItems, List.map_cons, ih]

theorem Value.rereadFields_eq_map (depth : Nat) (fields : Fields) :
    rereadFields depth fields = fields.map fun field => (.ok field.1, field.2.reread depth) := by
  induction fields with
  | nil => simp only [rereadFields, List.map_nil]
  | cons field fields ih => simp only [rereadFields, List.map_cons, ih]

/-- The text of a value breaks off nowhere. -/
theorem Value.ending?_reread (v : Value) (depth : Nat) : (v.reread depth).ending? = none := by
  cases v with
  | null | bool | int | str =>
    unfold reread
    rfl
  | real x =>
    unfold reread
    exact x.ending?_reread
  | arr items =>
    unfold reread arrayNode
    split <;> rfl
  | obj fields =>
    unfold reread objectNode
    split <;> rfl

/-- A number does not begin with a blank or with the end of an array, with a sign or without. -/
theorem head_signed {negative : Prop} [Decidable negative] {ds : List Char}
    (h : ∃ d more, ds = d :: more ∧ isDigit d = true) :
    ∃ c cs, (if negative then ['-'] else []) ++ ds = c :: cs ∧ isSpace c = false ∧ c ≠ ']' := by
  obtain ⟨d, more, rfl, hd⟩ := h
  split
  · exact ⟨'-', d :: more, rfl, by decide, by decide⟩
  · exact ⟨d, more, rfl, isSpace_of_isDigit hd, ne_of_isDigit hd rfl⟩

/-- The text of a value does not begin with a blank or with the end of an array. -/
theorem Value.head_chars (v : Value) : ∃ c cs, v.chars = c :: cs ∧ isSpace c = false ∧ c ≠ ']' := by
  -- by the first character, which is another one for each kind of value
  cases v with
  | null => exact ⟨'n', ['u', 'l', 'l'], rfl, by decide, by decide⟩
  | bool b =>
    cases b with
    | true => exact ⟨'t', ['r', 'u', 'e'], rfl, by decide, by decide⟩
    | false => exact ⟨'f', ['a', 'l', 's', 'e'], rfl, by decide, by decide⟩
  | int n =>
    obtain ⟨d, ds, hds⟩ := List.exists_cons_of_ne_nil (Nat.toDigits_ne_nil :
        Nat.toDigits 10 n.val.natAbs ≠ [])
    unfold chars intChars
    exact head_signed ⟨d, ds, hds, forall_isDigit_toDigits n.val.natAbs d (hds ▸ .head _)⟩
  | real x =>
    obtain ⟨negative, cs, htext, hreal⟩ := exists_realText x
    unfold chars
    rw [htext]
    exact head_signed hreal.head
  | str s =>
    exact ⟨'\x22', _, stringChars_append s [] ▸ (List.append_nil _).symm, by decide, by decide⟩
  | arr items => exact ⟨'[', itemChars items, by unfold chars; rfl, by decide, by decide⟩
  | obj fields => exact ⟨'\x7b', fieldChars fields, by unfold chars; rfl, by decide, by decide⟩

/-- Nor do items begin so. -/
theorem Value.head_itemChars (v : Value) (vs : List Value) :
    ∃ c cs, itemChars (v :: vs) = c :: cs ∧ isSpace c = false ∧ c ≠ ']' := by
  obtain ⟨c, cs, hchars, hc⟩ := v.head_chars
  cases vs with
  -- the last item is followed by the bracket, any other by a comma
  | nil =>
    refine ⟨c, cs ++ [']'], ?_, hc⟩
    unfold itemChars
    rw [hchars]
    rfl
  | cons w ws =>
    refine ⟨c, cs ++ ',' :: itemChars (w :: ws), ?_, hc⟩
    conv => lhs; unfold itemChars
    rw [hchars]
    rfl

/-- Fields begin with the quote of the first key. -/
theorem Value.head_fieldChars (k : String) (v : Value) (fields : Fields) :
    ∃ cs, fieldChars ((k, v) :: fields) = '\x22' :: cs := by
  cases fields with
  | nil =>
    unfold fieldChars
    rw [List.append_assoc, stringChars_append]
    exact ⟨_, rfl⟩
  | cons field fields =>
    unfold fieldChars
    rw [List.append_assoc, stringChars_append]
    exact ⟨_, rfl⟩

section Steps

variable {fuel depth : Nat} {cs left more : List Char} {node : Node} {c : Char} {parts : List Node}

/-- The last item is followed by the end of the array. -/
theorem readItems_last (hv : readValue fuel depth cs = (node, ']' :: more))
    (hnode : node.ending? = none) :
    readItems (fuel + 1) depth cs = ⟨[node], none, more⟩ := by
  unfold readItems
  rw [hv]
  dsimp only
  rw [hnode]
  rfl

/-- Any other item is followed by a comma and by further items. -/
theorem readItems_comma (hv : readValue fuel depth cs = (node, ',' :: c :: left))
    (hnode : node.ending? = none) (hc : isSpace c = false) (hne : c ≠ ']') :
    readItems (fuel + 1) depth cs =
      { readItems fuel depth (c :: left) with parts :=
        node :: (readItems fuel depth (c :: left)).parts } := by
  conv => lhs; unfold readItems
  rw [hv]
  dsimp only
  have hcomma : isSpace ',' = false := rfl
  simp only [hnode, skipSpace_cons hcomma, skipSpace_cons hc]
  split
  · next h => cases h
  · next h => exact absurd (List.cons.inj h).1 hne
  · rfl

/-- The last field is followed by the end of the object. -/
theorem readFields_last {k : String} (hv : readValue fuel depth cs = (node, '\x7d' :: more))
    (hnode : node.ending? = none) :
    readFields (fuel + 1) depth (stringChars k ++ ':' :: cs) = ⟨[(.ok k, node)], none, more⟩ := by
  have hcolon : isSpace ':' = false := rfl
  rw [stringChars_append]
  unfold readFields
  simp only [readString_stringChars, skipSpace_cons hcolon, hv, hnode]
  rfl

/-- Any other field is followed by a comma and by the quote of the next key. -/
theorem readFields_comma {k : String} (hv : readValue fuel depth cs = (node, ',' :: '\x22' :: left))
    (hnode : node.ending? = none) :
    readFields (fuel + 1) depth (stringChars k ++ ':' :: cs) =
      { readFields fuel depth ('\x22' :: left) with
        parts := (.ok k, node) :: (readFields fuel depth ('\x22' :: left)).parts } := by
  rw [stringChars_append]
  have hcolon : isSpace ':' = false := rfl
  conv => lhs; unfold readFields
  simp only [readString_stringChars, skipSpace_cons hcolon, hv, hnode]
  rfl

/-- An array with items in it is read as these items. -/
theorem readValue_items (hfuel : readItems fuel (depth + 1) (c :: cs) = ⟨parts, none, more⟩)
    (hc : isSpace c = false) (hne : c ≠ ']') :
    readValue (fuel + 1) depth ('[' :: c :: cs) = (arrayNode depth parts none, more) := by
  have hbracket : isSpace '[' = false := rfl
  have hdigit : isDigit '[' = false := rfl
  simp only [readValue, skipSpace_cons hbracket, skipSpace_cons hc, hdigit, Char.reduceEq,
    Bool.false_eq_true, if_false, if_true]
  split
  · next h => exact absurd (List.cons.inj h).1 hne
  · next h => cases h
  · rw [hfuel]

/-- An object with fields in it is read as these fields. -/
theorem readValue_fields {fields : List (Except Fault String × Node)}
    (hfuel : readFields fuel (depth + 1) ('\x22' :: cs) = ⟨fields, none, more⟩) :
    readValue (fuel + 1) depth ('\x7b' :: '\x22' :: cs) = (objectNode depth fields none, more) := by
  change ((objectNode depth (readFields fuel (depth + 1) ('\x22' :: cs)).parts _,
    _) : Node × List Char) = _
  rw [hfuel]

end Steps

/-! ### Values

The three functions call each other with one step less, so what they read with enough steps is shown
for all of them at once, by induction on the steps. A value takes no more steps than its text has
characters. -/

section Steps

variable (fuel : Nat)

/-- Values are read that are no longer than the number of steps. -/
def ReadsValues : Prop :=
  ∀ (v : Value) (depth : Nat) (rest : List Char), v.chars.length ≤ fuel → Ends rest →
    readValue fuel depth (v.chars ++ rest) = (v.reread depth, rest)

/-- Items are read that are no longer than the number of steps. -/
def ReadsItems : Prop :=
  ∀ (v : Value) (vs : List Value) (depth : Nat) (rest : List Char),
    (Value.itemChars (v :: vs)).length ≤ fuel →
      readItems fuel depth (Value.itemChars (v :: vs) ++ rest) =
        ⟨Value.rereadItems depth (v :: vs), none, rest⟩

/-- Fields are read that are no longer than the number of steps. -/
def ReadsFields : Prop :=
  ∀ (k : String) (v : Value) (fields : Fields) (depth : Nat) (rest : List Char),
    (Value.fieldChars ((k, v) :: fields)).length ≤ fuel →
      readFields fuel depth (Value.fieldChars ((k, v) :: fields) ++ rest) =
        ⟨Value.rereadFields depth ((k, v) :: fields), none, rest⟩

variable {fuel}

/-- One step more is enough for items, if values and items are read with the others. -/
theorem ReadsValues.items_succ (hvalues : ReadsValues fuel) (hitems : ReadsItems fuel) :
    ReadsItems (fuel + 1) := by
  intro v vs depth rest hfuel
  cases vs with
  -- the last item takes the whole text but for the bracket
  | nil =>
    unfold Value.itemChars at hfuel ⊢
    rw [List.length_append, List.length_singleton] at hfuel
    rw [List.append_assoc]
    exact readItems_last (hvalues v depth _ (by omega) (ends_cons ⟨rfl, by decide, rfl⟩))
      (v.ending?_reread depth)
  -- this item is shorter than the text, and so are the ones behind it
  | cons w ws =>
    obtain ⟨c, cs, hchars, hc, hne⟩ := Value.head_itemChars w ws
    unfold Value.itemChars at hfuel ⊢
    rw [List.length_append, List.length_cons] at hfuel
    rw [List.append_assoc, List.cons_append]
    have hfirst := hvalues v depth (',' :: (Value.itemChars (w :: ws) ++ rest)) (by omega)
      (ends_cons ⟨rfl, by decide, rfl⟩)
    have hrest := hitems w ws depth rest (by omega)
    rw [hchars, List.cons_append] at hfirst hrest ⊢
    rw [readItems_comma hfirst (v.ending?_reread depth) hc hne, hrest]
    rfl

/-- One step more is enough for fields. -/
theorem ReadsValues.fields_succ (hvalues : ReadsValues fuel) (hfields : ReadsFields fuel) :
    ReadsFields (fuel + 1) := by
  intro k v fields depth rest hfuel
  cases fields with
  | nil =>
    unfold Value.fieldChars at hfuel ⊢
    rw [List.append_assoc, List.length_append, List.cons_append, List.length_cons,
      List.length_append, List.length_singleton] at hfuel
    rw [List.append_assoc, List.append_assoc, List.cons_append]
    exact readFields_last (hvalues v depth _ (by omega) (ends_cons ⟨rfl, by decide, rfl⟩))
      (v.ending?_reread depth)
  -- the key, the colon and the comma are characters, too, so value and rest are shorter
  | cons field fields =>
    obtain ⟨k', v'⟩ := field
    obtain ⟨cs, hchars⟩ := Value.head_fieldChars k' v' fields
    unfold Value.fieldChars at hfuel ⊢
    rw [List.append_assoc, List.length_append, List.cons_append, List.length_cons,
      List.length_append, List.length_cons] at hfuel
    rw [List.append_assoc, List.append_assoc, List.cons_append, List.cons_append]
    have hfirst := hvalues v depth (',' :: (Value.fieldChars ((k', v') :: fields) ++ rest))
      (by omega) (ends_cons ⟨rfl, by decide, rfl⟩)
    have hrest := hfields k' v' fields depth rest (by omega)
    rw [hchars, List.cons_append] at hfirst hrest ⊢
    rw [readFields_comma hfirst (v.ending?_reread depth), hrest]
    rfl

/-- One step more is enough for a value: a container spends it on the bracket. -/
theorem ReadsItems.values_succ (hitems : ReadsItems fuel) (hfields : ReadsFields fuel) :
    ReadsValues (fuel + 1) := by
  intro v depth rest hfuel hrest
  cases v with
  | null => rfl
  | bool b => cases b <;> rfl
  | int n => exact readValue_intChars n hrest
  | real x => exact readValue_realText x fuel depth hrest
  | str s => exact readValue_stringChars s
  | arr items =>
    -- an empty array has no items to be read
    cases items with
    | nil => rfl
    | cons w ws =>
      obtain ⟨c, cs, hchars, hc, hne⟩ := Value.head_itemChars w ws
      unfold Value.chars at hfuel ⊢
      have hread := hitems w ws (depth + 1) rest (Nat.le_of_succ_le_succ hfuel)
      rw [List.cons_append]
      rw [hchars, List.cons_append] at hread ⊢
      exact readValue_items hread hc hne
  | obj fields =>
    -- an empty object has no fields to be read
    cases fields with
    | nil => rfl
    | cons field fields =>
      obtain ⟨k, w⟩ := field
      obtain ⟨cs, hchars⟩ := Value.head_fieldChars k w fields
      unfold Value.chars at hfuel ⊢
      have hread := hfields k w fields (depth + 1) rest (Nat.le_of_succ_le_succ hfuel)
      rw [List.cons_append]
      rw [hchars, List.cons_append] at hread ⊢
      exact readValue_fields hread

/-- **Whatever is no longer than the number of steps is read.** -/
theorem reads (fuel : Nat) : ReadsValues fuel ∧ ReadsItems fuel ∧ ReadsFields fuel := by
  induction fuel with
  | zero =>
    -- no text is as short as that
    refine ⟨fun v _ _ hfuel => ?_, fun v vs _ _ hfuel => ?_, fun k v fields _ _ hfuel => ?_⟩
    · obtain ⟨c, cs, hchars, -⟩ := v.head_chars
      rw [hchars] at hfuel
      cases hfuel
    · obtain ⟨c, cs, hchars, -⟩ := Value.head_itemChars v vs
      rw [hchars] at hfuel
      cases hfuel
    · obtain ⟨cs, hchars⟩ := Value.head_fieldChars k v fields
      rw [hchars] at hfuel
      cases hfuel
  | succ fuel ih =>
    obtain ⟨hvalues, hitems, hfields⟩ := ih
    exact ⟨hitems.values_succ hfields, hvalues.items_succ hitems, hvalues.fields_succ hfields⟩

end Steps

/-- **The text of a value is read as one node**, with nothing behind it. -/
theorem Node.ofText_render (v : Value) : Node.ofText v.render = (v.reread 0, none) := by
  have hread := (reads (2 * v.chars.length + 1)).1 v 0 [] (by omega) ends_nil
  rw [List.append_nil] at hread
  unfold ofText Value.render
  rw [String.toList_ofList]
  dsimp only
  rw [hread]
  rfl

/-- A decoder gets the node of a value from its text. -/
theorem Decoder.ofText_render {α : Type} (d : Decoder α) (v : Value) :
    d.ofText v.render = d .text (v.reread 0) := by
  unfold Decoder.ofText
  rw [Node.ofText_render]
  dsimp only
  cases d .text (v.reread 0) <;> rfl

/-! ### Values that come back -/

/-- A float **reads back** if its text is read as that float. -/
def Real.ReadsBack (x : Real) : Prop := x.reread = .real x

/-- What the text of a positive float is read as, given its digits. -/
theorem Real.reread_eq_real {x y : Real} {text : String} (significand : Nat) (exponent : Int)
    (htext : realText x = text)
    (hread : Node.ofText text = (realNode false significand exponent, none))
    (hscaled : ofScaled? significand exponent = some y.val) : x.reread = .real y := by
  unfold reread
  rw [htext, hread]
  unfold realNode
  rw [hscaled]
  exact dif_pos y.finite

namespace Value

mutual

/-- All floats in a value read back. -/
def RealsReadBack : Value → Prop
  | .real x => x.ReadsBack
  | .arr items => ItemsReadBack items
  | .obj fields => FieldsReadBack fields
  | .null | .bool _ | .int _ | .str _ => True

/-- All floats in items read back. -/
def ItemsReadBack : List Value → Prop
  | [] => True
  | v :: vs => RealsReadBack v ∧ ItemsReadBack vs

/-- All floats in fields read back. -/
def FieldsReadBack : List (String × Value) → Prop
  | [] => True
  | (_, v) :: vs => RealsReadBack v ∧ FieldsReadBack vs

end

/-- A float that reads back does so as a value. -/
theorem realsReadBack_ofFloat {x : Float} {hx : x.isFinite = true} (h : Real.ReadsBack ⟨x, hx⟩) :
    (ofFloat x).RealsReadBack := by
  unfold ofFloat
  rw [dif_pos hx]
  unfold RealsReadBack
  exact h

mutual

/-- **A value comes back**, if it is not nested too deep and its floats read back. -/
theorem reread_eq : ∀ (v : Value) (depth : Nat), v.RealsReadBack → depth + v.depth ≤ depthLimit →
    v.reread depth = Node.ofValue v
  | .null, _, _, _ | .bool _, _, _, _ | .int _, _, _, _ | .str _, _, _, _ => by
    simp only [reread, Node.ofValue]
  | .real x, depth, h, _ => by
    unfold RealsReadBack at h
    unfold reread Node.ofValue
    exact h
  | .arr items, depth, h, hdepth => by
    unfold RealsReadBack at h
    unfold Value.depth at hdepth
    -- the items are one deeper, for which the bound leaves room
    have hitems := rereadItems_eq items (depth + 1) h (by omega)
    unfold reread Node.ofValue arrayNode
    rw [if_pos (by omega), hitems]
  | .obj fields, depth, h, hdepth => by
    unfold RealsReadBack at h
    unfold Value.depth at hdepth
    have hfields := rereadFields_eq fields (depth + 1) h (by omega)
    unfold reread Node.ofValue objectNode
    rw [if_pos (by omega), hfields]

/-- Items come back one by one. -/
theorem rereadItems_eq : ∀ (vs : List Value) (depth : Nat), ItemsReadBack vs →
    depth + depthItems vs ≤ depthLimit →
    rereadItems depth vs = Node.ofItems vs
  | [], _, _, _ => by
    simp only [rereadItems, Node.ofItems]
  | v :: vs, depth, h, hdepth => by
    unfold ItemsReadBack at h
    unfold depthItems at hdepth
    have hfirst := reread_eq v depth h.1 (by omega)
    have hrest := rereadItems_eq vs depth h.2 (by omega)
    unfold rereadItems Node.ofItems
    rw [hfirst, hrest]

/-- Fields come back one by one. -/
theorem rereadFields_eq : ∀ (fields : List (String × Value)) (depth : Nat), FieldsReadBack fields →
    depth + depthFields fields ≤ depthLimit → rereadFields depth fields = Node.ofFields fields
  | [], _, _, _ => by
    simp only [rereadFields, Node.ofFields]
  | (k, v) :: fields, depth, h, hdepth => by
    unfold FieldsReadBack at h
    unfold depthFields at hdepth
    have hfirst := reread_eq v depth h.1 (by omega)
    have hrest := rereadFields_eq fields depth h.2 (by omega)
    unfold rereadFields Node.ofFields
    rw [hfirst, hrest]

end

end Value

end Playtest.Json
