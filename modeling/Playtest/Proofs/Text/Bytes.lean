import Mathlib.Data.List.Basic

/-!
# The bytes of texts

The bytes of a text as a list. They are the bytes of its parts one after the other (`bytes_append`),
no two texts have the same (`bytes_inj`), and ASCII characters have one each
(`bytes_ofList_of_ascii`).
-/

namespace Playtest

/-- The loop that lists bytes puts those that are left behind those that were read. -/
theorem ByteArray.loop_eq (bytes : ByteArray) (i : Nat) (read : List UInt8) :
    ByteArray.toList.loop bytes i read = read.reverse ++ bytes.data.toList.drop i := by
  -- with each pass one byte less is left
  induction i, read using ByteArray.toList.loop.induct bytes with
  | case1 i read hlt ih =>
    have hi : i < bytes.data.toList.length := by simpa using hlt
    have hget : bytes.get! i = bytes.data.toList[i] := by
      rw [ByteArray.get!, Array.getElem_toList, getElem!_pos bytes.data i (by simpa using hlt)]
    rw [ByteArray.toList.loop, if_pos hlt, ih, List.drop_eq_getElem_cons hi, hget,
      List.reverse_cons, List.append_assoc, List.singleton_append]
  | case2 i read hge =>
    have hend : bytes.data.toList.length ≤ i := by simpa using hge
    rw [ByteArray.toList.loop, if_neg hge, List.drop_eq_nil_of_le hend, List.append_nil]

/-- The list of the bytes is what the array holds. -/
theorem ByteArray.toList_eq (bytes : ByteArray) : bytes.toList = bytes.data.toList := by
  rw [ByteArray.toList, ByteArray.loop_eq, List.reverse_nil, List.nil_append, List.drop_zero]

/-- The bytes of one text behind another are those of the first and then those of the second. -/
theorem bytes_append (s t : String) :
    (s ++ t).toUTF8.toList = s.toUTF8.toList ++ t.toUTF8.toList := by
  simp only [ByteArray.toList_eq, String.toUTF8_eq_toByteArray, String.toByteArray_append,
    ByteArray.data_append, Array.toList_append]

/-- The bytes of texts that are joined are those of all of them, one after another. -/
theorem bytes_join (names : List String) :
    (String.join names).toUTF8.toList = names.flatMap fun name => name.toUTF8.toList := by
  induction names with
  | nil => rw [ByteArray.toList_eq]; rfl
  | cons name names ih => rw [String.join_cons, bytes_append, ih, List.flatMap_cons]

theorem bytes_inj {s t : String} : s.toUTF8.toList = t.toUTF8.toList ↔ s = t := by
  refine ⟨fun h => ?_, fun h => h ▸ rfl⟩
  rw [ByteArray.toList_eq, ByteArray.toList_eq] at h
  exact String.toByteArray_inj.mp (ByteArray.ext (Array.toList_inj.mp h))

/-- A text of ASCII characters has one byte for each of them. -/
theorem bytes_ofList_of_ascii {cs : List Char} (h : ∀ c ∈ cs, c.toNat ≤ 127) :
    (String.ofList cs).toUTF8.toList = cs.map fun c => c.val.toUInt8 := by
  have hchar : ∀ c ∈ cs, String.utf8EncodeChar c = [c.val.toUInt8] := fun c hc =>
    String.utf8EncodeChar_eq_singleton (Char.utf8Size_eq_one_iff.mpr (h c hc))
  have hbytes : (String.ofList cs).toUTF8.toList = cs.flatMap String.utf8EncodeChar := by
    rw [ByteArray.toList_eq, String.toUTF8_eq_toByteArray, String.toByteArray_ofList,
      List.utf8Encode, List.data_toByteArray]
  rw [hbytes, List.flatMap_congr hchar]
  exact List.map_eq_flatMap.symm

end Playtest
