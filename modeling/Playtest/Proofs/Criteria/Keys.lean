import Playtest.Criteria.Key

/-!
# Where keys lie

The keys of criteria are made by going on from the key of the list that they stand in, so that all
keys of a list begin with the key of the list (`Criteria.below_of_mem_withKeys`). This is what lets
requests be abandoned by the beginning of their keys.

Keys also tell the members of a list apart. `1/end.1` is the beginning of `1/end.10`, and so this
does not follow from where keys lie. It takes that positions are written in digits and the keys of
members go on behind a dot: two members have different keys (`Key.member_injective`), and no member
has the key of something inside another one (`Key.not_below_inner`).
-/

namespace Playtest

namespace Key

variable {key parent child : Key}

/-- A key lies **below** another one if it begins with it. -/
def Below (parent key : Key) : Prop := parent.toList <+: key.toList

theorem Below.refl (key : Key) : Below key key := List.prefix_refl _

/-- What lies below what lies below a key lies below the key. -/
theorem Below.trans (h : Below parent child) (h' : Below child key) : Below parent key :=
  List.IsPrefix.trans h h'

/-- The key of a member goes on with a dot and the position in digits. -/
theorem toList_member (key : Key) (position : Nat) :
    (key.member position).toList = key.toList ++ '.' :: Nat.toDigits 10 position := by
  simp [member, String.toList_append]

theorem below_member (key : Key) (position : Nat) : Below key (key.member position) :=
  ⟨'.' :: Nat.toDigits 10 position, (toList_member key position).symm⟩

/-- A number in digits is told from what comes behind it, if that does not go on with a digit. -/
theorem toDigits_append_inj {i j : Nat} {xs ys : List Char} (hx : ∀ c ∈ xs.head?, c.isDigit = false)
    (hy : ∀ c ∈ ys.head?, c.isDigit = false)
    (h : Nat.toDigits 10 i ++ xs = Nat.toDigits 10 j ++ ys) : i = j ∧ xs = ys := by
  have stops : ∀ zs : List Char, (∀ c ∈ zs.head?, c.isDigit = false) →
      zs.takeWhile Char.isDigit = [] := by
    intro zs hz
    cases zs with
    | nil => rfl
    | cons c zs => rw [List.takeWhile_cons_of_neg (by rw [hz c rfl]; exact Bool.false_ne_true)]
  have digits : ∀ (n : Nat) (zs : List Char), (∀ c ∈ zs.head?, c.isDigit = false) →
      (Nat.toDigits 10 n ++ zs).takeWhile Char.isDigit = Nat.toDigits 10 n := by
    intro n zs hz
    rw [List.takeWhile_append_of_pos fun c hc =>
      Nat.isDigit_of_mem_toDigits (by decide) (by decide) hc, stops zs hz, List.append_nil]
  -- the digits are the longest beginning in digits, on both sides
  have hdigits : Nat.toDigits 10 i = Nat.toDigits 10 j := by
    rw [← digits i xs hx, h, digits j ys hy]
  refine ⟨?_, ?_⟩
  · -- and they are read back as the number
    calc i
      _ = Nat.ofDigitChars 10 (Nat.toDigits 10 i) 0 := Nat.ofDigitChars_ten_toDigits.symm
      _ = Nat.ofDigitChars 10 (Nat.toDigits 10 j) 0 := by rw [hdigits]
      _ = j := Nat.ofDigitChars_ten_toDigits
  · rw [hdigits] at h
    exact List.append_cancel_left h

/-- **Two members have different keys.** -/
theorem member_injective (key : Key) {i j : Nat} (h : key.member i = key.member j) : i = j := by
  have hlist : key.toList ++ '.' :: Nat.toDigits 10 i = key.toList ++ '.' :: Nat.toDigits 10 j := by
    rw [← toList_member, ← toList_member, h]
  have hdigits : Nat.toDigits 10 i ++ [] = Nat.toDigits 10 j ++ [] := by
    rw [List.append_nil, List.append_nil]
    exact (List.cons.inj (List.append_cancel_left hlist)).2
  exact (toDigits_append_inj (fun _ hc => by cases hc) (fun _ hc => by cases hc) hdigits).1

/-- A key does not lie below its members. -/
theorem not_below_outer (key : Key) (position : Nat) : ¬ Below (key.member position) key := by
  intro h
  have hle := List.IsPrefix.length_le h
  rw [toList_member, List.length_append, List.length_cons] at hle
  omega

/-- The key of a member does not lie below anything inside a member. -/
theorem not_below_inner (key : Key) (i j position : Nat) :
    ¬ Below ((key.member j).member position) (key.member i) := by
  intro h
  unfold Below at h
  rw [toList_member, toList_member, toList_member, List.append_assoc, List.prefix_append_right_inj,
    List.cons_append, List.cons_prefix_cons] at h
  -- the second dot would have to be one of the digits
  have hdot : '.' ∈ Nat.toDigits 10 i :=
    h.2.subset (List.mem_append_right _ List.mem_cons_self)
  have hdigit : '.'.isDigit := Nat.isDigit_of_mem_toDigits (by decide) (by decide) hdot
  exact absurd hdigit (by decide)

end Key

namespace Criteria

mutual

/-- The keys of a criteria and of what is inside it begin with its key. -/
theorem below_of_mem_keyed (key : Key) : ∀ c : Criteria, ∀ e ∈ keyed key c, Key.Below key e.1
  | single _ _ _ => by
    intro e he
    rw [List.mem_singleton.mp he]
    exact .refl key
  | group _ _ _ members => by
    intro e he
    rcases List.mem_cons.mp he with rfl | he
    · exact .refl key
    · exact below_of_mem_keyedFrom key 0 members e he

/-- The same for members, from any position on. -/
theorem below_of_mem_keyedFrom (parent : Key) :
    ∀ (position : Nat) (cs : List Criteria), ∀ e ∈ keyedFrom parent position cs,
      Key.Below parent e.1
  | _, [] => fun _ he => absurd he List.not_mem_nil
  | position, c :: cs => by
    intro e he
    -- the keys of this member begin with its own, which begins with that of the list
    rcases List.mem_append.mp he with he | he
    · have hmember : Key.Below (Key.member parent position) e.1 :=
        below_of_mem_keyed (parent.member position) c e he
      exact (Key.below_member parent position).trans hmember
    · exact below_of_mem_keyedFrom parent (position + 1) cs e he

end

/-- The keys of a list lie below the keys of its members. -/
theorem below_member_of_mem_keyedFrom (parent : Key) (cs : List Criteria) :
    ∀ position, ∀ e ∈ keyedFrom parent position cs, ∃ i, Key.Below (parent.member i) e.1 := by
  induction cs with
  | nil => exact fun _ _ he => absurd he List.not_mem_nil
  | cons c rest ih =>
    intro position e he
    rcases List.mem_append.mp he with he | he
    · exact ⟨position, below_of_mem_keyed (parent.member position) c e he⟩
    · exact ih (position + 1) e he

/-- **All keys of a list begin with the key of the list.** -/
theorem below_of_mem_withKeys {parent : Key} {cs : List Criteria} {e : Key × Criteria}
    (he : e ∈ withKeys parent cs) : Key.Below parent e.1 :=
  below_of_mem_keyedFrom parent 0 cs e he

end Criteria

end Playtest
