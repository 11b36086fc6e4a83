import Mathlib.Data.List.TakeDrop
import Playtest.Json.Reader
import Playtest.Json.Writer

/-!
# Tokens come back from texts

A number or a string that was written is found again in a text, whatever follows it there. A number
has no end of its own, so what follows must not be taken for more of it (`Ends`).

Strings and integers come back as they were. Of a float it is only known that its text is read as
one number (`exists_readNumber_realText`), because the quick reading of a float can be a place off
the number that was written.
-/

namespace Playtest.Number

/-! ### Zero among decimals -/

/-- Zeros are taken off the end of a number, but never the whole of it. -/
theorem digits_stripZeros_ne_zero {d : Decimal} (h : d.digits ≠ 0) (fuel : Nat) :
    (d.stripZeros fuel).digits ≠ 0 := by
  induction fuel generalizing d with
  | zero => exact h
  | succ fuel ih =>
    unfold Decimal.stripZeros
    split
    · next hzeros => exact ih (show d.digits / 10 ≠ 0 by omega)
    · exact h

namespace Rounding

variable {r : Rounding} {tie : Tie}

/-- A number that was found on the grid lies within the bounds. -/
theorem contains_of_onGrid? {step n : Nat} (h : r.onGrid? tie step = some n) :
    r.contains n = true := by
  unfold Rounding.onGrid? at h
  dsimp only at h
  split at h
  · next hlower _ => exact Option.some.inj h ▸ hlower
  · next _ hupper => exact Option.some.inj h ▸ hupper
  · cases h
  · -- both neighbours are within the bounds, so the tie decides unless one is closer
    next hlower hupper =>
    split at h
    · exact Option.some.inj h ▸ hlower
    · exact Option.some.inj h ▸ hupper
    · cases tie with
      | up => exact Option.some.inj h ▸ hupper
      | toEven =>
        dsimp only at h
        split at h
        · exact Option.some.inj h ▸ hlower
        · exact Option.some.inj h ▸ hupper

/-- What lies within the bounds is not below the lower one. -/
theorem low_le_of_contains {n : Nat} (h : r.contains n = true) : r.low ≤ n := by
  unfold Rounding.contains at h
  split at h
  · exact of_decide_eq_true (Bool.and_eq_true_iff.mp h).1
  · exact Nat.le_of_lt (of_decide_eq_true (Bool.and_eq_true_iff.mp h).1)

/-- What is selected is not zero, if neither the bound nor the value is. -/
theorem select_ne_zero (hlow : 0 < r.low) (hvalue : r.value ≠ 0) (places : Nat) :
    r.select tie places ≠ 0 := by
  induction places with
  | zero => exact hvalue
  | succ places ih =>
    unfold Rounding.select
    split
    · -- it was found on a grid, within the bounds
      next n hn =>
      have := low_le_of_contains (contains_of_onGrid? hn)
      omega
    · exact ih

end Rounding

/-- Of the shortest decimals only that of zero has no digits, and it has no places in front of the
point. -/
theorem exponent_shortest_le {f : Format} {tie : Tie} {m : Nat} {q : Int}
    (h : (shortest f tie m q).digits = 0) :
    (shortest f tie m q).exponent ≤ 0 := by
  unfold shortest at h ⊢
  split at h
  · next hzero => exact Int.le_of_eq (congrArg Decimal.exponent (if_pos hzero))
  · -- a number that is not zero has a decimal that is not zero, so the case does not arise
    next hzero =>
    have hm : m ≠ 0 := fun heq => hzero (beq_iff_eq.mpr heq)
    have hunit : 0 < if 0 ≤ q - 2 then Nat.pow 2 (q - 2).toNat else Nat.pow 5 (-(q - 2)).toNat := by
      split
      · exact Nat.pow_pos (by decide)
      · exact Nat.pow_pos (by decide)
    refine absurd h (digits_stripZeros_ne_zero (Rounding.select_ne_zero ?low ?value _) _)
    case low =>
      refine Nat.mul_pos ?_ hunit
      split <;> omega
    case value =>
      exact Nat.mul_ne_zero (Nat.mul_ne_zero (by decide) hm) (Nat.pos_iff_ne_zero.mp hunit)

end Playtest.Number

namespace Playtest.Json

open Playtest.Number

/-! ### Digits -/

/-- A text **ends** a number in front of it if it does not go on with a part of a number. -/
def Ends (cs : List Char) : Prop :=
  ∀ c ∈ cs.head?, isDigit c = false ∧ c ≠ '.' ∧ isExponentMark c = false

theorem ends_nil : Ends [] := fun _ h => nomatch h

theorem ends_cons {c : Char} {cs : List Char}
    (h : isDigit c = false ∧ c ≠ '.' ∧ isExponentMark c = false) :
    Ends (c :: cs) := by
  rintro d ⟨⟩
  exact h

/-- Digits are digits for the reader. -/
theorem forall_isDigit_toDigits (n : Nat) : ∀ c ∈ Nat.toDigits 10 n, isDigit c = true :=
  fun _ hc => Nat.isDigit_of_mem_toDigits (by decide) (by decide) hc

theorem forall_isDigit_zeros (n : Nat) : ∀ c ∈ zeros n, isDigit c = true := by
  intro c hc
  rw [(List.mem_replicate.mp hc).2]
  rfl

/-- Digits are written without a zero in front. -/
theorem toDigits_eq_zero_cons {n : Nat} {cs : List Char} (h : Nat.toDigits 10 n = '0' :: cs) :
    n = 0 := by
  induction n using Nat.strongRecOn generalizing cs with
  | ind n ih =>
  by_cases hn : n < 10
  · rw [Nat.toDigits_of_lt_base hn] at h
    exact Nat.digitChar_eq_zero.mp (List.cons.inj h).1
  · rw [Nat.toDigits_of_base_le (by decide) (Nat.le_of_not_lt hn)] at h
    -- the first digit is that of the number without its last one
    obtain ⟨hnil, -⟩ | ⟨ds, hds, -⟩ := List.append_eq_cons_iff.mp h
    · exact absurd hnil Nat.toDigits_ne_nil
    · have := ih (n / 10) (by omega) hds
      omega

/-- Digits are taken as far as they go. -/
theorem takeDigits_append {ds rest : List Char} (hds : ∀ c ∈ ds, isDigit c = true)
    (hrest : ∀ c ∈ rest.head?, isDigit c = false) : takeDigits (ds ++ rest) = (ds, rest) := by
  -- what stands behind them begins with no digit
  have hstop : rest.takeWhile isDigit = [] ∧ rest.dropWhile isDigit = rest := by
    cases rest with
    | nil => exact ⟨rfl, rfl⟩
    | cons c rest =>
      have hc : ¬isDigit c = true := Bool.eq_false_iff.mp (hrest c rfl)
      exact ⟨List.takeWhile_cons_of_neg hc, List.dropWhile_cons_of_neg hc⟩
  unfold takeDigits
  rw [List.span_eq_takeWhile_dropWhile, List.takeWhile_append_of_pos hds,
    List.dropWhile_append_of_pos hds, hstop.1, hstop.2, List.append_nil]

/-- Reading on in digits never makes a number less. -/
theorem le_ofDigitChars (cs : List Char) (n : Nat) : n ≤ Nat.ofDigitChars 10 cs n := by
  induction cs generalizing n with
  | nil => exact Nat.le_refl n
  | cons c cs ih =>
    rw [Nat.ofDigitChars_cons]
    exact Nat.le_trans (by omega) (ih _)

/-- Digits that fit are all taken. -/
theorem addDigits_eq {cs : List Char} {n : Nat} (h : Nat.ofDigitChars 10 cs n < UInt64.size) :
    addDigits n cs = (Nat.ofDigitChars 10 cs n, []) := by
  induction cs generalizing n with
  | nil => rfl
  | cons c cs ih =>
    rw [Nat.ofDigitChars_cons, Nat.mul_comm] at h
    -- it does not go beyond 64 bits here if it does not in the end
    have hnext : n * 10 + (c.toNat - 48) < UInt64.size := Nat.lt_of_le_of_lt (le_ofDigitChars _ _) h
    unfold addDigits
    dsimp only
    rw [if_pos hnext, Nat.ofDigitChars_cons, Nat.mul_comm 10 n]
    exact ih h

/-! ### Numbers -/

/-- Digits that a number may begin with. -/
structure Whole (ds : List Char) : Prop where
  digits : ∀ c ∈ ds, isDigit c = true
  ne_nil : ds ≠ []
  zero : ∀ more, ds = '0' :: more → more = []

/-- The digits of a number are such digits, since it has no zero in front. -/
theorem whole_toDigits (n : Nat) : Whole (Nat.toDigits 10 n) where
  digits := forall_isDigit_toDigits n
  ne_nil := Nat.toDigits_ne_nil
  zero more h := by
    cases toDigits_eq_zero_cons h
    exact (List.cons.inj h).2.symm

theorem whole_singleton {c : Char} (h : isDigit c = true) : Whole [c] where
  digits := List.forall_mem_singleton.mpr h
  ne_nil := List.cons_ne_nil _ _
  zero _ h := (List.cons.inj h).2.symm

variable {negative : Bool} {ds rest : List Char}

/-- Such digits are read as the whole part of a number. -/
theorem Whole.readNumber (h : Whole ds) (hrest : ∀ c ∈ rest.head?, isDigit c = false) :
    readNumber negative (ds ++ rest) = readFraction negative ds rest := by
  unfold Json.readNumber
  rw [takeDigits_append h.digits hrest]
  split
  · next heq => exact absurd (Prod.mk.inj heq).1 h.ne_nil
  · next heq =>
    cases heq
    rfl
  · next more _ hnot heq =>
    -- a zero in front of other digits is no number
    obtain ⟨hds, rfl⟩ := Prod.mk.inj heq
    exact absurd (h.zero more hds) hnot
  · next heq =>
    cases heq
    rfl

theorem isDigit_of_ends (h : Ends rest) : ∀ c ∈ rest.head?, isDigit c = false :=
  fun c hc => (h c hc).1

/-- **Integers are read as they are.** -/
theorem readNumber_toDigits {n : Nat} (hn : n < UInt64.size) (hrest : Ends rest) :
    readNumber negative (Nat.toDigits 10 n ++ rest) = (integerNode negative n, rest) := by
  have hadd : addDigits 0 (Nat.toDigits 10 n) = (n, []) := by
    have hvalue : Nat.ofDigitChars 10 (Nat.toDigits 10 n) 0 = n := Nat.ofDigitChars_ten_toDigits
    rw [addDigits_eq (by rwa [hvalue]), hvalue]
  rw [(whole_toDigits n).readNumber (isDigit_of_ends hrest)]
  unfold readFraction
  -- behind the digits there is no point and no exponent, so they were all
  rw [hadd]
  dsimp only
  cases rest with
  | nil => rfl
  | cons c rest =>
    obtain ⟨-, hpoint, hmark⟩ := hrest c rfl
    split
    · next heq => exact absurd (List.cons.inj heq).1 hpoint
    · next heq =>
      cases heq
      rw [hmark]
      rfl
    · next heq => cases heq

/-- Behind a point and digits a number ends or goes on with its exponent. -/
theorem exists_readFraction_point (negative : Bool) (whole : List Char) {part : List Char}
    (hpart : ∀ c ∈ part, isDigit c = true) (hne : part ≠ []) :
    ∃ (significand : Nat) (exponent : Int),
      (∀ rest, Ends rest →
        readFraction negative whole ('.' :: part ++ rest) = (realNode negative significand exponent,
          rest)) ∧
      ∀ rest, readFraction negative whole ('.' :: part ++ 'e' :: rest) =
        readExponent negative significand exponent rest := by
  generalize hadd : addDigits 0 whole = added
  obtain ⟨first, surplus⟩ := added
  generalize hmore : addDigits first part = more
  obtain ⟨significand, unused⟩ := more
  obtain ⟨d, ds, rfl⟩ := List.exists_cons_of_ne_nil hne
  refine ⟨significand, surplus.length - ((d :: ds).length - unused.length : Nat),
    fun rest hrest => ?_, fun rest => ?_⟩
  · -- nothing follows that belongs to the number
    have htake := takeDigits_append hpart (isDigit_of_ends hrest)
    rw [List.cons_append]
    unfold readFraction
    rw [hadd]
    simp only [htake]
    rw [hmore]
    cases rest with
    | nil => rfl
    | cons c rest =>
      dsimp only
      rw [(hrest c rfl).2.2]
      rfl
  · -- the exponent follows
    have htake : takeDigits (d :: ds ++ 'e' :: rest) = (d :: ds, 'e' :: rest) :=
      takeDigits_append hpart fun c hc => by cases hc; rfl
    rw [List.cons_append]
    unfold readFraction
    rw [hadd]
    simp only [htake]
    rw [hmore]
    rfl

/-- Without a point, the exponent follows the whole part. -/
theorem exists_readFraction_mark (negative : Bool) (whole : List Char) :
    ∃ (significand : Nat) (exponent : Int), ∀ rest,
      readFraction negative whole ('e' :: rest) = readExponent negative significand exponent rest :=
  ⟨_, _, fun _ => rfl⟩

/-- Behind its mark and its sign an exponent is read to its end. -/
theorem exists_readExponent (negative : Bool) (significand : Nat) (exponent : Int) (down : Bool)
    (n : Nat) :
    ∃ e : Int, ∀ rest, Ends rest →
      readExponent negative significand exponent ((if down then '-' else '+') ::
        (Nat.toDigits 10 n ++ rest)) =
        (realNode negative significand e, rest) := by
  obtain ⟨d, ds, hds⟩ := List.exists_cons_of_ne_nil (Nat.toDigits_ne_nil : Nat.toDigits 10 n ≠ [])
  have htake : ∀ rest, Ends rest → takeDigits (d :: ds ++ rest) = (d :: ds, rest) :=
    fun rest hrest => takeDigits_append (hds ▸ forall_isDigit_toDigits n) (isDigit_of_ends hrest)
  rw [hds]
  -- the sign decides whether the exponent is added or taken away
  cases down with
  | true =>
    refine ⟨exponent - digitsValue (d :: ds), fun rest hrest => ?_⟩
    simp only [readExponent, if_true, htake rest hrest]
  | false =>
    refine ⟨exponent + digitsValue (d :: ds), fun rest hrest => ?_⟩
    simp only [readExponent, Bool.false_eq_true, if_false, htake rest hrest]

/-- A text is **read as a float**, whatever follows it. -/
def ReadAsReal (negative : Bool) (cs : List Char) : Prop :=
  ∃ (significand : Nat) (exponent : Int), ∀ rest, Ends rest →
    readNumber negative (cs ++ rest) = (realNode negative significand exponent, rest)

/-- Digits with a point and further digits are read as a float. -/
theorem Whole.readAsReal_point {part : List Char} (h : Whole ds)
    (hpart : ∀ c ∈ part, isDigit c = true)
    (hne : part ≠ []) : ReadAsReal negative (ds ++ '.' :: part) := by
  obtain ⟨significand, exponent, hread, -⟩ := exists_readFraction_point negative ds hpart hne
  refine ⟨significand, exponent, fun rest hrest => ?_⟩
  rw [List.append_assoc, h.readNumber fun c hc => by cases hc; rfl]
  exact hread rest hrest

/-- Digits with an exponent are read as a float. -/
theorem Whole.readAsReal_exponent (h : Whole ds) (down : Bool) (n : Nat) :
    ReadAsReal negative (ds ++ 'e' :: (if down then '-' else '+') :: Nat.toDigits 10 n) := by
  obtain ⟨significand, exponent, hfraction⟩ := exists_readFraction_mark negative ds
  obtain ⟨e, hexponent⟩ := exists_readExponent negative significand exponent down n
  refine ⟨significand, e, fun rest hrest => ?_⟩
  rw [List.append_assoc, h.readNumber fun c hc => by cases hc; rfl]
  exact (hfraction _).trans (hexponent rest hrest)

/-- Digits with a point and an exponent are read as a float. -/
theorem Whole.readAsReal_point_exponent {part : List Char} (h : Whole ds)
    (hpart : ∀ c ∈ part, isDigit c = true) (hne : part ≠ []) (down : Bool) (n : Nat) :
    ReadAsReal negative (ds ++ '.' :: part ++ 'e' :: (if down then '-' else '+') ::
      Nat.toDigits 10 n) := by
  obtain ⟨significand, exponent, -, hfraction⟩ := exists_readFraction_point negative ds hpart hne
  obtain ⟨e, hexponent⟩ := exists_readExponent negative significand exponent down n
  refine ⟨significand, e, fun rest hrest => ?_⟩
  rw [List.append_assoc, List.append_assoc, h.readNumber fun c hc => by cases hc; rfl]
  exact (hfraction _).trans (hexponent rest hrest)

/-! ### Floats -/

theorem forall_isDigit_append {cs : List Char} (hds : ∀ c ∈ ds, isDigit c = true)
    (hcs : ∀ c ∈ cs, isDigit c = true) : ∀ c ∈ ds ++ cs, isDigit c = true :=
  List.forall_mem_append.mpr ⟨hds, hcs⟩

/-- **A decimal in positions is read as a float**, if it has no places in front of the point where
it has no digits. -/
theorem readAsReal_positional {d : Decimal} (h : d.digits = 0 → d.exponent ≤ 0) :
    ReadAsReal negative (d.positional true) := by
  have hdigits := forall_isDigit_toDigits d.digits
  have hne : Nat.toDigits 10 d.digits ≠ [] := Nat.toDigits_ne_nil
  unfold Decimal.positional
  dsimp only
  generalize hds : Nat.toDigits 10 d.digits = ds at hdigits hne ⊢
  have hzero : ∀ more, ds = '0' :: more → d.digits = 0 ∧ more = [] := fun more hmore =>
    ⟨toDigits_eq_zero_cons (hds.trans hmore), (hds ▸ whole_toDigits d.digits).zero more hmore⟩
  split
  · next hexponent =>
    -- zeros behind the digits, which are none if the digits are zero
    have hwhole : Whole (ds ++ zeros d.exponent.toNat) := by
      refine ⟨forall_isDigit_append hdigits (forall_isDigit_zeros _),
        List.append_ne_nil_of_left_ne_nil hne _, fun more hmore => ?_⟩
      obtain ⟨hnil, -⟩ | ⟨cs, hcs, rfl⟩ := List.append_eq_cons_iff.mp hmore
      · exact absurd hnil hne
      · obtain ⟨hd, rfl⟩ := hzero cs hcs
        have : d.exponent = 0 := by have := h hd; omega
        rw [this]
        rfl
    have hpart : ∀ c ∈ ['0'], isDigit c = true := List.forall_mem_singleton.mpr rfl
    exact hwhole.readAsReal_point hpart (List.cons_ne_nil _ _)
  · next hexponent =>
    split
    · next hplaces =>
      -- the point stands among the digits
      have hwhole : Whole (ds.take (ds.length - (-d.exponent).toNat)) := by
        refine ⟨fun c hc => hdigits c (List.mem_of_mem_take hc), ?_, fun more hmore => ?_⟩
        · intro hnil
          have := congrArg List.length hnil
          rw [List.length_take, List.length_nil] at this
          omega
        · have hsplit := List.take_append_drop (ds.length - (-d.exponent).toNat) ds
          rw [hmore] at hsplit
          exact (List.append_eq_nil_iff.mp (hzero _ hsplit.symm).2).1
      refine hwhole.readAsReal_point (fun c hc => hdigits c (List.mem_of_mem_drop hc)) fun hnil =>
        ?_
      have := congrArg List.length hnil
      rw [List.length_drop, List.length_nil] at this
      omega
    · -- the digits stand behind the point
      exact (whole_singleton (c := '0') rfl).readAsReal_point
        (forall_isDigit_append (forall_isDigit_zeros _) hdigits)
          (List.append_ne_nil_of_right_ne_nil _ hne)

/-- **A decimal with an exponent is read as a float.** -/
theorem readAsReal_scientific (d : Decimal) : ReadAsReal negative d.scientific := by
  have hdigits := forall_isDigit_toDigits d.digits
  have hne : Nat.toDigits 10 d.digits ≠ [] := Nat.toDigits_ne_nil
  unfold Decimal.scientific
  dsimp only
  generalize Nat.toDigits 10 d.digits = ds at hdigits hne ⊢
  generalize d.exponent + ds.length - 1 = lead
  -- the sign is told by a flag, and one digit stands without a point
  have hsign : (if lead < 0 then '-' else '+') = if decide (lead < 0) then '-' else '+' := by
    simp only [decide_eq_true_eq]
  rw [hsign]
  match ds with
  | [] => exact absurd rfl hne
  | [first] => exact (whole_singleton (hdigits first (.head _))).readAsReal_exponent _ _
  | first :: second :: more =>
    rw [List.forall_mem_cons] at hdigits
    exact (whole_singleton hdigits.1).readAsReal_point_exponent hdigits.2 (List.cons_ne_nil _ _) _ _

/-- What is read as a float is read to its end, whether it is too large for one or not. -/
theorem ending?_realNode (negative : Bool) (significand : Nat) (exponent : Int) :
    (realNode negative significand exponent).ending? = none := by
  unfold realNode
  split
  · next x _ =>
    dsimp only
    by_cases hfinite : (if negative then -x else x).isFinite = true
    · rw [dif_pos hfinite]
      rfl
    · rw [dif_neg hfinite]
      rfl
  · rfl

/-- What is read as a float begins with a digit. -/
theorem ReadAsReal.head {cs : List Char} (h : ReadAsReal negative cs) :
    ∃ c more, cs = c :: more ∧ isDigit c = true := by
  obtain ⟨significand, exponent, hread⟩ := h
  have hnode : (readNumber negative cs).1.ending? = none := by
    have := hread [] ends_nil
    rw [List.append_nil] at this
    rw [this]
    exact ending?_realNode ..
  cases cs with
  | nil => cases hnode
  | cons c more =>
    refine ⟨c, more, rfl, ?_⟩
    cases hc : isDigit c with
    | true => rfl
    -- it begins with no digit, and then no digits are taken and nothing is read
    | false =>
      have htake : takeDigits (c :: more) = ([], c :: more) :=
        takeDigits_append (List.forall_mem_nil _) fun d hd => by cases hd; exact hc
      unfold readNumber at hnode
      rw [htake] at hnode
      cases hnode

/-- **The layout of a float is read as a float**, whichever it is. -/
theorem readAsReal_magnitude (f : Format) (m : Nat) (q : Int) :
    ReadAsReal negative (Layout.json.magnitude f m q) := by
  change ReadAsReal negative (if _ then _ else _)
  split
  · exact readAsReal_positional exponent_shortest_le
  · exact readAsReal_scientific _

/-! ### Strings -/

/-- Hexadecimal digits are read as what they stand for. -/
theorem hexValue?_hexDigit : ∀ d < 16, hexValue? (hexDigit d) = some d := by decide

/-- The code of a character below the blank is no half of a pair, so it stands for the character. -/
theorem pushCode_toNat (read : List Char) {c : Char} (h : c.toNat < 0x20) :
    (Partial.fine read).pushCode c.toNat = .fine (c :: read) := by
  have htrailing : isTrailing c.toNat = false := by
    unfold isTrailing
    rw [decide_eq_false (by omega)]
    rfl
  have hleading : isLeading c.toNat = false := by
    unfold isLeading
    rw [decide_eq_false (by omega)]
    rfl
  change (if isTrailing c.toNat then _ else if isLeading c.toNat then _ else _) = _
  rw [htrailing, hleading, Char.ofNat_toNat]
  rfl

/-- So are the four digits of the code of a control character. -/
theorem hexValue4?_hexDigit {n : Nat} (h : n < 0x20) :
    hexValue4? '0' '0' (hexDigit (n / 16)) (hexDigit (n % 16)) = some n := by
  have hhigh : hexValue? (hexDigit (n / 16)) = some (n / 16) := hexValue?_hexDigit _ (by omega)
  have hlow : hexValue? (hexDigit (n % 16)) = some (n % 16) := hexValue?_hexDigit _ (by omega)
  unfold hexValue4?
  rw [hhigh, hlow]
  change some (((0 * 16 + 0) * 16 + n / 16) * 16 + n % 16) = some n
  exact congrArg some (by omega)

/-- Each character of a string is read as itself, escaped or not. -/
theorem readString_escapeChar (read : List Char) (c : Char) (rest : List Char) :
    readString (.fine read) (escapeChar c ++ rest) = readString (.fine (c :: read)) rest := by
  -- seven characters have escapes of their own
  unfold escapeChar
  split
  · next h => subst h; rfl
  split
  · next h => subst h; rfl
  split
  · next h => subst h; rfl
  split
  · next h => subst h; rfl
  split
  · next h => subst h; rfl
  split
  · next h => subst h; rfl
  split
  · next h => subst h; rfl
  split
  · next h =>
    -- the other control characters are written by their codes
    change readString _ ('\\' :: 'u' :: '0' :: '0' :: hexDigit (c.toNat / 16) ::
      hexDigit (c.toNat % 16) :: rest) = _
    conv => lhs; unfold readString
    simp only [hexValue4?_hexDigit h, pushCode_toNat read h]
  · -- any other character stands for itself, since it neither ends the string nor escapes anything
    next hquote hbackslash _ _ _ _ _ hcontrol =>
    rw [List.singleton_append, readString]
    · rw [if_neg hquote, if_neg hbackslash, if_neg hcontrol]
      rfl
    · exact fun _ _ _ _ _ h => absurd h hbackslash
    · exact fun _ _ h => absurd h hbackslash

/-- The characters of a string are read one after another. -/
theorem readString_flatMap (read cs rest : List Char) :
    readString (.fine read) (cs.flatMap escapeChar ++ rest) =
      readString (.fine (cs.reverse ++ read)) rest := by
  induction cs generalizing read with
  | nil => rfl
  | cons c cs ih =>
    rw [List.flatMap_cons, List.append_assoc, readString_escapeChar, ih, List.reverse_cons,
      List.append_assoc]
    rfl

/-- **Strings are read as they are.** -/
theorem readString_stringChars (s : String) (rest : List Char) :
    readString (.fine []) (s.toList.flatMap escapeChar ++ '\x22' :: rest) =
      .complete (.ok s) rest := by
  rw [readString_flatMap, List.append_nil]
  change StringToken.complete (.ok (String.ofList s.toList.reverse.reverse)) rest = _
  rw [List.reverse_reverse, String.ofList_toList]

end Playtest.Json
