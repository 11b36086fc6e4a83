import Playtest.Proofs.Json.Text
import Playtest.Proofs.Text.Lines

/-!
# Values on lines

A file can have one value on each line since the text of a value is on one line, whatever the value:
it has no control character in it (`Value.plain_chars`), and so neither a line break nor a carriage
return. Such lines are found again in a file (`Text.records_lined`), which is read by the line, with
blank lines left out.
-/

namespace Playtest

open Playtest.Number

/-! ### Texts without control characters -/

/-- A text is **plain** if it has no control character in it. -/
def Text.Plain (cs : List Char) : Prop := ∀ c ∈ cs, 0x20 ≤ c.toNat

-- the characters of the text are looked at, not all characters there are
instance (cs : List Char) : Decidable (Text.Plain cs) :=
  List.decidableBAll (fun c : Char => 0x20 ≤ c.toNat) cs

namespace Text.Plain

variable {cs ds : List Char} {c : Char}

theorem nil : Plain [] := List.forall_mem_nil _

theorem cons (hc : 0x20 ≤ c.toNat) (hcs : Plain cs) : Plain (c :: cs) :=
  List.forall_mem_cons.mpr ⟨hc, hcs⟩

theorem append (hcs : Plain cs) (hds : Plain ds) : Plain (cs ++ ds) :=
  List.forall_mem_append.mpr ⟨hcs, hds⟩

theorem take (h : Plain cs) (n : Nat) : Plain (cs.take n) :=
  fun c hc => h c (List.mem_of_mem_take hc)

theorem drop (h : Plain cs) (n : Nat) : Plain (cs.drop n) :=
  fun c hc => h c (List.mem_of_mem_drop hc)

/-- A control character is not in such a text. -/
theorem not_mem (h : Plain cs) (hc : c.toNat < 0x20) : c ∉ cs := fun hmem => by
  have := h c hmem
  omega

end Text.Plain

open Text (Plain)

/-! ### Numbers -/

/-- Digits are plain. -/
theorem Number.plain_toDigits (n : Nat) : Plain (Nat.toDigits 10 n) := by
  intro c hc
  have hdigit : '0'.toNat ≤ c.toNat :=
    (Char.isDigit_iff_toNat.mp (Json.forall_isDigit_toDigits n c hc)).1
  exact Nat.le_trans (by decide) hdigit

theorem Number.plain_zeros (n : Nat) : Plain (zeros n) := by
  intro c hc
  rw [(List.mem_replicate.mp hc).2]
  decide

/-- So is a decimal in positions, wherever its point stands. -/
theorem Number.Decimal.plain_positional (d : Decimal) (pointZero : Bool) :
    Plain (d.positional pointZero) := by
  have hdigits := plain_toDigits d.digits
  have hzeros := plain_zeros
  unfold positional
  dsimp only
  split
  · -- the point is behind the digits, among them, or in front of them
    refine (hdigits.append (hzeros _)).append ?_
    cases pointZero <;> decide
  · split
    · exact (hdigits.take _).append (.cons (by decide) (hdigits.drop _))
    · exact (Plain.append (by decide) (hzeros _)).append hdigits

/-- And a decimal with an exponent. -/
theorem Number.Decimal.plain_scientific (d : Decimal) : Plain d.scientific := by
  have hdigits := plain_toDigits d.digits
  unfold scientific
  dsimp only
  generalize Nat.toDigits 10 d.digits = ds at hdigits
  have hexponent : ∀ lead : Int,
      Plain ('e' :: (if lead < 0 then '-' else '+') :: Nat.toDigits 10 lead.natAbs) := by
    intro lead
    refine .cons (by decide) (.cons ?_ (plain_toDigits _))
    split <;> decide
  refine Plain.append ?_ (hexponent _)
  -- the point stands behind the first digit, if there is another one
  split
  · next first second rest =>
    obtain ⟨hfirst, hrest⟩ := List.forall_mem_cons.mp hdigits
    exact .cons hfirst (.cons (by decide) hrest)
  · exact hdigits

namespace Json

/-! ### Values -/

/-- A sign in front does not matter. -/
theorem plain_signed {negative : Prop} [Decidable negative] {cs : List Char} (h : Plain cs) :
    Plain ((if negative then ['-'] else []) ++ cs) := by
  split
  · exact .cons (by decide) h
  · exact h

theorem plain_intChars (n : Int) : Plain (intChars n) := plain_signed (plain_toDigits _)

/-- **The text of a float is plain.** -/
theorem plain_realText (x : Real) : Plain (realText x).toList := by
  obtain ⟨negative, m, q, hunpack⟩ := exists_unpack_of_isFinite x.finite
  unfold realText
  rw [hunpack]
  change Plain (String.ofList ((if negative then ['-'] else []) ++
    Layout.json.magnitude .double m q)).toList
  rw [String.toList_ofList]
  refine plain_signed ?_
  -- in one of two layouts, by how large the number is
  change Plain (if _ then _ else _)
  split
  · exact Decimal.plain_positional _ _
  · exact Decimal.plain_scientific _

/-- Control characters are escaped. -/
theorem plain_escapeChar (c : Char) : Plain (escapeChar c) := by
  -- the codes of control characters are written in digits, and all other escapes are two characters
  have hhex : ∀ d < 16, 0x20 ≤ (hexDigit d).toNat := by decide
  have hescape : ∀ d : Char, 0x20 ≤ d.toNat → Plain ['\\', d] :=
    fun d hd => .cons (by decide) (.cons hd .nil)
  unfold escapeChar
  iterate 7
    split
    · exact hescape _ (by decide)
  split
  · next hcontrol =>
    have hfirst := hhex (c.toNat / 16) (by omega)
    have hsecond := hhex (c.toNat % 16) (by omega)
    have hmark : Plain ['\\', 'u', '0', '0'] := by decide
    exact hmark.append (.cons hfirst (.cons hsecond .nil))
  · next hprintable => exact .cons (Nat.le_of_not_lt hprintable) .nil

/-- A string in quotes is plain, as all its characters are when they are escaped. -/
theorem plain_stringChars (s : String) : Plain (stringChars s) := by
  refine .cons (by decide) (Plain.append ?_ (by decide))
  intro c hc
  obtain ⟨d, -, hd⟩ := List.mem_flatMap.mp hc
  exact plain_escapeChar d c hd

mutual

/-- **The text of a value has no control character in it.** -/
theorem Value.plain_chars : (v : Value) → Plain v.chars
  | .null | .bool true | .bool false => by
    unfold chars
    decide
  | .int n => by
    unfold chars
    exact plain_intChars n.val
  | .real x => by
    unfold chars
    exact plain_realText x
  | .str s => by
    unfold chars
    exact plain_stringChars s
  | .arr items => by
    unfold chars
    exact .cons (by decide) (plain_itemChars items)
  | .obj fields => by
    unfold chars
    exact .cons (by decide) (plain_fieldChars fields)

/-- So do the texts of items. -/
theorem Value.plain_itemChars : (items : List Value) → Plain (itemChars items)
  | [] => by
    unfold itemChars
    decide
  | [v] => by
    unfold itemChars
    exact v.plain_chars.append (by decide)
  | v :: w :: vs => by
    unfold itemChars
    exact v.plain_chars.append (.cons (by decide) (plain_itemChars (w :: vs)))

/-- And those of fields. -/
theorem Value.plain_fieldChars : (fields : List (String × Value)) → Plain (fieldChars fields)
  | [] => by
    unfold fieldChars
    decide
  | [(k, v)] => by
    unfold fieldChars
    exact ((plain_stringChars k).append (.cons (by decide) v.plain_chars)).append (by decide)
  | (k, v) :: field :: fields => by
    unfold fieldChars
    exact ((plain_stringChars k).append (.cons (by decide) v.plain_chars)).append
      (.cons (by decide) (plain_fieldChars (field :: fields)))

end

end Json

/-! ### Lines -/

namespace Text

/-- Texts without line breaks, each with one behind it, are the lines. -/
theorem fileLines_lined {texts : List (List Char)} (h : ∀ cs ∈ texts, '\n' ∉ cs ∧ '\r' ∉ cs) :
    fileLines (texts.flatMap fun cs => cs ++ ['\n']) = texts ++ [[]] := by
  induction texts with
  | nil => rfl
  | cons cs texts ih =>
    obtain ⟨⟨hcs, hcr⟩, htexts⟩ := List.forall_mem_cons.mp h
    rw [List.flatMap_cons, List.append_assoc, List.singleton_append,
      fileLines_feed hcs fun heq => hcr (List.mem_of_getLast? heq), ih htexts,
      List.cons_append]

/-- The texts of records are the lines that are not blank. -/
theorem records_snd (text : String) : (records text).map (·.2) =
    ((fileLines text.toList).filter fun line => !line.all isBlank).map String.ofList := by
  unfold records
  generalize fileLines text.toList = ls
  -- the lines are numbered one after the other, whatever the first number is
  generalize 1 = start
  induction ls generalizing start with
  | nil => rfl
  | cons line ls ih =>
    rw [List.zipIdx_cons, List.filterMap_cons]
    cases hblank : line.all isBlank with
    | true => simpa [hblank] using ih (start + 1)
    | false => simpa [hblank] using ih (start + 1)

end Text

/-- An object begins with a brace, so its line is not blank. -/
theorem Json.Value.chars_obj_not_blank (fields : Fields) :
    (Value.obj fields).chars.all Text.isBlank = false := by
  have hbrace : Text.isBlank '\x7b' = false := by decide
  rw [chars, List.all_cons, hbrace]
  rfl

/-- **Objects on lines are found again**: their texts, each with a line break behind it, are the
records. -/
theorem Json.Value.records_lined {α : Type} {write : α → Value}
    (hwrite : ∀ a, ∃ fields, write a = .obj fields) (as : List α) :
    (Text.records (String.join (as.map fun a => (write a).render ++ "\n"))).map (·.2) =
      as.map fun a => (write a).render := by
  -- as characters, the text is the texts of the objects with a break behind each
  have htext : (String.join (as.map fun a => (write a).render ++ "\n")).toList =
      (as.map fun a => (write a).chars).flatMap fun cs => cs ++ ['\n'] := by
    rw [String.toList_join, List.flatMap_map, List.flatMap_map]
    simp only [String.toList_append, render, String.toList_ofList]
    rfl
  have hplain : ∀ cs ∈ as.map fun a => (write a).chars, Text.Plain cs := by
    intro cs hcs
    obtain ⟨a, -, rfl⟩ := List.mem_map.mp hcs
    exact (write a).plain_chars
  have hbreak : ∀ cs ∈ as.map fun a => (write a).chars, '\n' ∉ cs ∧ '\r' ∉ cs :=
    fun cs hcs => ⟨(hplain cs hcs).not_mem (by decide), (hplain cs hcs).not_mem (by decide)⟩
  -- the line behind the last break is blank
  have hobjects : ((as.map fun a => (write a).chars) ++ [[]]).filter
      (fun line : List Char => !line.all Text.isBlank) = as.map fun a => (write a).chars := by
    rw [List.filter_append, List.filter_eq_self.mpr]
    · exact List.append_nil _
    · intro cs hcs
      obtain ⟨a, -, rfl⟩ := List.mem_map.mp hcs
      obtain ⟨fields, hfields⟩ := hwrite a
      rw [hfields, chars_obj_not_blank]
      rfl
  calc (Text.records (String.join (as.map fun a => (write a).render ++ "\n"))).map (·.2)
    _ = (((as.map fun a => (write a).chars) ++ [[]]).filter
          fun line : List Char => !line.all Text.isBlank).map String.ofList := by
        rw [Text.records_snd, htext, Text.fileLines_lined hbreak]
    _ = (as.map fun a => (write a).chars).map String.ofList := by rw [hobjects]
    _ = as.map fun a => (write a).render := List.map_map

end Playtest
