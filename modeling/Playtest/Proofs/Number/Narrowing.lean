import Playtest.Number.Binary

/-!
# Widening loses nothing

A 32-bit number that is widened to 64 bits and narrowed again is the same number (`narrow_widen`).

Both ways go through the exact value of a number, so it is enough that each format packs what it
unpacked. For the formats themselves that is `pack_unpack`. What is packed here is the nearest
number to an exact value, and a significand that has all its places is not rounded
(`Format.Canonical`): then the nearest number has just this significand.

The same rounding bounds what an integer is packed to, so an integer that fits 64 bits is a finite
number (`isFinite_doubleOfInt`).
-/

namespace Playtest.Number

/-! ### Numbers and their bits -/

section Model

open Float.Model Float.Model.UnpackedFloat

variable {f : Float.Model.Format} {b : BitVec f.numBits}

/-- Bits are made of their parts. -/
theorem packComponents_unpack (b : BitVec f.numBits) {e : BitVec f.exponentBits}
    {m : BitVec f.mantissaBitsWithoutImplicit} (he : unpackExponent b = e)
    (hm : unpackMantissa b = m) :
    packComponents f (Sign.ofBitVec (unpackSign b)) e m = b := by
  -- the sign is one bit, and so there are two to look at
  have hsign : ∀ s : BitVec 1, (Sign.ofBitVec s).toBitVec = s := by decide
  subst he hm
  unfold packComponents
  rw [hsign]
  unfold unpackSign unpackExponent unpackMantissa BitVec.extractLsb
  ext i hi
  simp only [BitVec.getElem_cast, BitVec.getElem_append, BitVec.getElem_extractLsb', Nat.zero_add]
  split
  · rfl
  split
  · exact congrArg b.getLsbD (show _ = i by omega)
  · exact congrArg b.getLsbD (show _ = i by omega)

/-- The exponent of an encoding, as a number. -/
theorem toNat_unpackExponent (b : BitVec f.numBits) :
    (unpackExponent b).toNat =
      b.toNat / Nat.pow 2 f.mantissaBitsWithoutImplicit % Nat.pow 2 f.exponentBits := by
  have hwidth : f.mantissaBitsWithoutImplicit + f.exponentBits - 1 -
      f.mantissaBitsWithoutImplicit + 1 = f.exponentBits := by
    have := f.he
    omega
  unfold unpackExponent
  rw [BitVec.toNat_cast, BitVec.extractLsb_toNat, Nat.shiftRight_eq_div_pow, hwidth]
  rfl

/-- The hidden bit stands for a power of two. -/
theorem toNat_append_one {w : Nat} (m : BitVec w) : (1#1 ++ m).toNat = Nat.pow 2 w + m.toNat := by
  rw [BitVec.toNat_append, ← Nat.shiftLeft_add_eq_or_of_lt m.isLt, Nat.shiftLeft_eq]
  change 1 * Nat.pow 2 w + m.toNat = _
  rw [Nat.one_mul]

/-- The hidden bit is one place more. -/
theorem mantissaBits_eq (f : Float.Model.Format) :
    f.mantissaBits = f.mantissaBitsWithoutImplicit + 1 :=
  Nat.add_comm ..

theorem toNat_pos_of_ne_zero {w : Nat} {x : BitVec w} (h : x ≠ 0#w) : 0 < x.toNat := by
  rwa [BitVec.toNat_pos, BitVec.pos_iff_ne_zero]

/-- An encoding whose exponent has all of its bits: infinity, or no number. -/
theorem pack_unpack_of_ones (h : f.Valid b) (hones : unpackExponent b = -1#_) :
    UnpackedFloat.pack f (UnpackedFloat.unpack f b) = b := by
  unfold UnpackedFloat.unpack
  dsimp only
  rw [if_pos hones]
  by_cases hzero : unpackMantissa b = 0#_
  · rw [if_pos hzero]
    exact packComponents_unpack b hones hzero
  · rw [if_neg hzero]
    exact (h.eq_packedNaN hones hzero).symm

/-- An encoding whose exponent has none: zero, or a number below all normal ones. -/
theorem pack_unpack_of_zeros (hbits : 2 ≤ f.exponentBits) (hones : unpackExponent b ≠ -1#_)
    (hsmall : unpackExponent b = 0#_) : UnpackedFloat.pack f (UnpackedFloat.unpack f b) = b := by
  have hmantissa : (unpackMantissa b).toNat < Nat.pow 2 f.mantissaBitsWithoutImplicit :=
    (unpackMantissa b).isLt
  have hpow : 4 ≤ Nat.pow 2 f.exponentBits := Nat.pow_le_pow_right (n := 2) (by decide) hbits
  unfold UnpackedFloat.unpack
  dsimp only
  rw [if_neg hones, if_pos hsmall]
  by_cases hzero : unpackMantissa b = 0#_
  · rw [dif_pos hzero]
    exact packComponents_unpack b hsmall hzero
  · rw [dif_neg hzero]
    have hpos := toNat_pos_of_ne_zero hzero
    -- the hidden bit is not set, which is how packing tells a number below all normal ones
    have hlog : ¬ (unpackMantissa b).toNat.log2 + 1 = f.mantissaBits := by
      have := (Nat.log2_lt (Nat.ne_of_gt hpos)).mpr hmantissa
      have := mantissaBits_eq f
      omega
    have hfield : (unpackExponent b).toNat = 0 := by
      rw [hsmall]
      rfl
    unfold UnpackedFloat.pack
    dsimp only
    rw [if_neg (by rw [hfield]; change ¬ Nat.pow 2 _ ≤ _; omega), if_neg hlog]
    refine packComponents_unpack b hsmall ?_
    rw [BitVec.ofNat_toNat, BitVec.setWidth_eq]

/-- An encoding of a normal number. -/
theorem pack_unpack_of_normal (hones : unpackExponent b ≠ -1#_) (hsmall : unpackExponent b ≠ 0#_) :
    UnpackedFloat.pack f (UnpackedFloat.unpack f b) = b := by
  have hmantissa : (unpackMantissa b).toNat < Nat.pow 2 f.mantissaBitsWithoutImplicit :=
    (unpackMantissa b).isLt
  have hexponent : (unpackExponent b).toNat < Nat.pow 2 f.exponentBits := (unpackExponent b).isLt
  have hdouble : Nat.pow 2 (f.mantissaBitsWithoutImplicit + 1) =
      Nat.pow 2 f.mantissaBitsWithoutImplicit * 2 :=
    Nat.pow_succ ..
  have hpos := toNat_pos_of_ne_zero hsmall
  have hne : (unpackExponent b).toNat ≠ Nat.pow 2 f.exponentBits - 1 := by
    intro heq
    refine hones (BitVec.eq_of_toNat_eq ?_)
    rw [heq, BitVec.neg_one_eq_allOnes, BitVec.toNat_allOnes]
    rfl
  -- the hidden bit is the first one, so that the number has all of its places
  have hlog : (1#1 ++ unpackMantissa b).toNat.log2 + 1 = f.mantissaBits := by
    have hfull := toNat_append_one (unpackMantissa b)
    have hlow := (Nat.le_log2 (n := (1#1 ++ unpackMantissa b).toNat)
      (k := f.mantissaBitsWithoutImplicit) (by omega)).mpr (by change Nat.pow 2 _ ≤ _; omega)
    have hhigh := (Nat.log2_lt (n := (1#1 ++ unpackMantissa b).toNat)
      (k := f.mantissaBitsWithoutImplicit + 1) (by omega)).mpr (by change _ < Nat.pow 2 _; omega)
    have := mantissaBits_eq f
    omega
  have hbiased : (((unpackExponent b).toNat : Int) -
      (f.exponentBias + f.mantissaBitsWithoutImplicit) + f.exponentBias +
        f.mantissaBitsWithoutImplicit).toNat = (unpackExponent b).toNat := by omega
  unfold UnpackedFloat.unpack
  dsimp only
  rw [if_neg hones, if_neg hsmall]
  unfold UnpackedFloat.pack
  dsimp only
  rw [hbiased, if_neg (by change ¬ Nat.pow 2 _ ≤ _; omega), if_pos hlog]
  refine packComponents_unpack b ?_ ?_
  · rw [BitVec.ofNat_toNat, BitVec.setWidth_eq]
  · apply BitVec.eq_of_toNat_eq
    rw [BitVec.toNat_ofNat, toNat_append_one]
    change _ = (Nat.pow 2 _ + _) % Nat.pow 2 _
    rw [Nat.add_mod_left, Nat.mod_eq_of_lt hmantissa]

/-- **Taking bits apart loses nothing**, if they are the bits of a number. -/
theorem pack_unpack (hbits : 2 ≤ f.exponentBits) (h : f.Valid b) :
    UnpackedFloat.pack f (UnpackedFloat.unpack f b) = b := by
  by_cases hones : unpackExponent b = -1#_
  · exact pack_unpack_of_ones h hones
  by_cases hsmall : unpackExponent b = 0#_
  · exact pack_unpack_of_zeros hbits hones hsmall
  · exact pack_unpack_of_normal hones hsmall

/-- A number is finite unless its exponent has all of its bits. -/
theorem isFinite_unpack_iff :
    (UnpackedFloat.unpack f b).isFinite = true ↔ unpackExponent b ≠ -1#_ := by
  unfold UnpackedFloat.unpack
  dsimp only
  by_cases hones : unpackExponent b = -1#_
  · -- infinity, or no number
    rw [if_pos hones]
    refine iff_of_false ?_ (not_not_intro hones)
    by_cases hzero : unpackMantissa b = 0#_
    · rw [if_pos hzero]
      exact Bool.false_ne_true
    · rw [if_neg hzero]
      exact Bool.false_ne_true
  · -- zero, a number below all normal ones, or a normal one
    rw [if_neg hones]
    refine iff_of_true ?_ hones
    by_cases hsmall : unpackExponent b = 0#_
    · rw [if_pos hsmall]
      by_cases hzero : unpackMantissa b = 0#_
      · rw [dif_pos hzero]
        rfl
      · rw [dif_neg hzero]
        rfl
    · rw [if_neg hsmall]
      rfl

/-- When the exponent has all of its bits, told by numbers. -/
theorem unpackExponent_eq_ones_iff :
    unpackExponent b = -1#_ ↔
      b.toNat / Nat.pow 2 f.mantissaBitsWithoutImplicit % Nat.pow 2 f.exponentBits =
        Nat.pow 2 f.exponentBits - 1 := by
  rw [← toNat_unpackExponent, ← BitVec.toNat_inj, BitVec.neg_one_eq_allOnes, BitVec.toNat_allOnes]
  rfl

end Model

/-- A 32-bit number is made of its bits. -/
theorem ofBits_toBits (x : Float32) : Float32.ofBits x.toBits = x := by
  obtain ⟨⟨bits, hvalid⟩⟩ := x
  have hpack : Float.Model.UnpackedFloat.pack .binary32 (.unpack .binary32 bits.toBitVec) =
      bits.toBitVec :=
    pack_unpack (by decide) hvalid
  have hround : (Float32.ofBits bits).toBits = bits := congrArg UInt32.ofBitVec hpack
  change Float32.ofBits bits = _
  -- a number is given by its bits
  generalize Float32.ofBits bits = y at hround ⊢
  cases hround
  rfl

/-- The field of the exponent in a 32-bit encoding. -/
theorem isFinite_single_iff (x : Float32) :
    x.isFinite = true ↔ x.toBits.toNat / Nat.pow 2 23 % Nat.pow 2 8 ≠ 255 :=
  isFinite_unpack_iff.trans (not_congr unpackExponent_eq_ones_iff)

section Double

variable {bits : Nat}

/-- The field of the exponent in a 64-bit encoding. -/
theorem isFinite_double_iff (x : Float) :
    x.isFinite = true ↔ x.toBits.toNat / Nat.pow 2 52 % Nat.pow 2 11 ≠ 2047 :=
  isFinite_unpack_iff.trans (not_congr unpackExponent_eq_ones_iff)

/-- An encoding whose exponent is that of a finite number is the encoding of one. -/
theorem toBits_ofBits (h : bits / Nat.pow 2 52 % Nat.pow 2 11 ≠ 2047) (hb : bits < UInt64.size) :
    (Float.ofBits (UInt64.ofNat bits)).toBits.toNat = bits := by
  have htoNat : (UInt64.ofNat bits).toBitVec.toNat = bits := UInt64.toNat_ofNat_of_lt' hb
  -- only an encoding with the greatest exponent may be invalid
  have hvalid : Float.Model.Format.binary64.Valid (UInt64.ofNat bits).toBitVec := by
    refine ⟨fun hones => absurd (unpackExponent_eq_ones_iff.mp hones) ?_⟩
    rw [htoNat]
    exact h
  have hpack := pack_unpack (f := .binary64) (by decide) hvalid
  have hround : (Float.ofBits (UInt64.ofNat bits)).toBits = UInt64.ofNat bits :=
    congrArg UInt64.ofBitVec hpack
  rw [hround]
  exact htoNat

theorem isFinite_ofBits (h : bits / Nat.pow 2 52 % Nat.pow 2 11 ≠ 2047) (hb : bits < UInt64.size) :
    (Float.ofBits (UInt64.ofNat bits)).isFinite = true := by
  rw [isFinite_double_iff, toBits_ofBits h hb]
  exact h

end Double

/-! ### Encodings -/

/-- Powers of two are multiplied by adding their exponents. -/
theorem pow_add (a b : Nat) : Nat.pow 2 (a + b) = Nat.pow 2 a * Nat.pow 2 b := Nat.pow_add ..

theorem pow_pos (k : Nat) : 0 < Nat.pow 2 k := Nat.pow_pos (by decide)

namespace Format

variable {f : Format} {m n k : Nat} {e : Int}

/-- A number **as an encoding has it**: the significand is full, unless the exponent is the least
one. -/
structure Canonical (f : Format) (n : Nat) (e : Int) : Prop where
  pos : 0 < n
  small : n < Nat.pow 2 f.precision
  least : f.leastExponent ≤ e
  full : Nat.pow 2 (f.precision - 1) ≤ n ∨ e = f.leastExponent

/-- The exponent of the last place is what it was. -/
theorem Canonical.last_eq (h : f.Canonical n e) :
    max (e + (n.log2 + 1) - f.precision) f.leastExponent = e := by
  have hne : n ≠ 0 := Nat.ne_of_gt h.pos
  have hlog : n.log2 < f.precision := (Nat.log2_lt hne).mpr h.small
  have hleast := h.least
  rcases h.full with hfull | rfl
  · have := (Nat.le_log2 hne).mpr hfull
    omega
  · omega

/-- Zeros behind a number are so many places more. -/
theorem log2_mul_pow (hn : n ≠ 0) (k : Nat) : (n * Nat.pow 2 k).log2 = n.log2 + k := by
  induction k with
  | zero => exact congrArg Nat.log2 (Nat.mul_one n)
  | succ k ih =>
    have hstep : n * Nat.pow 2 (k + 1) = 2 * (n * Nat.pow 2 k) := by
      rw [pow_add, ← Nat.mul_assoc, Nat.mul_comm]
    have hne : n * Nat.pow 2 k ≠ 0 := Nat.mul_ne_zero hn (Nat.ne_of_gt (pow_pos k))
    rw [hstep, Nat.log2_two_mul hne, ih]
    rfl

/-- Nothing is rounded where nothing but zeros are shifted out. -/
theorem shiftRightEven_mul_pow (n k : Nat) : shiftRightEven (n * Nat.pow 2 k) k = n := by
  have hpos := pow_pos k
  unfold shiftRightEven
  dsimp only
  rw [Nat.mul_mod_left, Nat.mul_div_cancel _ hpos, if_pos (by omega)]

/-- The encoding of a number that is written as an encoding has it. -/
def magnitude (f : Format) (n : Nat) (e : Int) : Nat :=
  min ((e - f.leastExponent).toNat * Nat.pow 2 (f.precision - 1) + n) f.infinityBits

/-- Zeros behind the significand make no difference. -/
theorem Canonical.encodeMagnitude_mul (h : f.Canonical n e) (k : Nat) :
    f.encodeMagnitude (n * Nat.pow 2 k) (e - k) = f.magnitude n e := by
  have hne : n ≠ 0 := Nat.ne_of_gt h.pos
  have hzero : (n * Nat.pow 2 k == 0) = false :=
    beq_eq_false_iff_ne.mpr (Nat.mul_ne_zero hne (Nat.ne_of_gt (pow_pos k)))
  -- the last place is where it was, since the zeros make the significand longer
  have hlast : max (e - k + (((n * Nat.pow 2 k).log2 : Int) + 1) - f.precision) f.leastExponent =
      e := by
    rw [log2_mul_pow hne]
    have := h.last_eq
    omega
  unfold encodeMagnitude magnitude
  dsimp only
  rw [hzero, if_neg Bool.false_ne_true, hlast]
  split
  · next hle =>
    -- there are no zeros at all
    obtain rfl : k = 0 := by omega
    rw [show (e - (0 : Nat) - e).toNat = 0 by omega]
    simp
  · rw [show (e - (e - (k : Int))).toNat = k by omega, shiftRightEven_mul_pow]

/-- And neither do zeros that are missing. -/
theorem encodeMagnitude_of_mul {q : Int} (h : f.Canonical (m * Nat.pow 2 k) (q - k)) :
    f.encodeMagnitude m q = f.magnitude (m * Nat.pow 2 k) (q - k) := by
  -- a full significand is not zero
  have hne : m ≠ 0 := by
    rintro rfl
    have := h.pos
    omega
  have hlast : max (q + ((m.log2 : Int) + 1) - f.precision) f.leastExponent = q - k := by
    have := h.last_eq
    rw [log2_mul_pow hne] at this
    omega
  unfold encodeMagnitude magnitude
  dsimp only
  rw [beq_eq_false_iff_ne.mpr hne, if_neg Bool.false_ne_true, hlast, if_pos (by omega),
    show (q - (q - (k : Int))).toNat = k by omega]

/-! ### The two formats -/

/-- A finite 32-bit encoding is taken apart by arithmetic. -/
theorem unpack_single (bits : Nat) (h : bits / Nat.pow 2 23 % Nat.pow 2 8 ≠ 255) :
    single.unpack bits =
      if bits / Nat.pow 2 23 % Nat.pow 2 8 = 0 then
        .finite (bits / Nat.pow 2 31 % 2 == 1) (bits % Nat.pow 2 23) (-149)
      else
        .finite (bits / Nat.pow 2 31 % 2 == 1) (Nat.pow 2 23 + bits % Nat.pow 2 23)
          (-149 + (bits / Nat.pow 2 23 % Nat.pow 2 8 : Nat) - 1) := by
  have hne : (bits / Nat.pow 2 23 % Nat.pow 2 8 == Nat.pow 2 8 - 1) = false :=
    beq_eq_false_iff_ne.mpr h
  change (if (bits / Nat.pow 2 23 % Nat.pow 2 8 == Nat.pow 2 8 - 1) = true then _
    else if (bits / Nat.pow 2 23 % Nat.pow 2 8 == 0) = true then _ else _) = _
  rw [hne, if_neg Bool.false_ne_true]
  simp only [beq_iff_eq]
  rfl

/-- A finite 32-bit encoding, taken apart and put together again. -/
theorem exists_unpack_single {bits : Nat} (hb : bits < UInt32.size)
    (h : bits / Nat.pow 2 23 % Nat.pow 2 8 ≠ 255) :
    ∃ negative n e, single.unpack bits = .finite negative n e ∧ e ≤ 104 ∧
      (n = 0 ∧ e = -149 ∨ single.Canonical n e) ∧
        bits = (if negative then Nat.pow 2 31 else 0) + ((e + 149).toNat * Nat.pow 2 23 + n) := by
  have h8 : Nat.pow 2 8 = 256 := rfl
  have h23 : Nat.pow 2 23 = 8388608 := rfl
  have h31 : Nat.pow 2 31 = 2147483648 := rfl
  have h24 : Nat.pow 2 single.precision = 16777216 := rfl
  have h22 : Nat.pow 2 (single.precision - 1) = 8388608 := rfl
  have hleast : single.leastExponent = -149 := rfl
  have hsize : UInt32.size = 4294967296 := rfl
  have hunpack := unpack_single bits h
  -- the powers are numbers from here on, and the rest is arithmetic
  rw [h8, h23] at h
  rw [h8, h23, h31] at hunpack
  rw [h23, h31]
  have hsign : (if (bits / 2147483648 % 2 == 1) = true then 2147483648 else 0) =
      bits / 2147483648 * 2147483648 := by
    simp only [beq_iff_eq]
    split <;> omega
  split at hunpack
  · next hfield =>
    refine ⟨_, _, _, hunpack, by omega, ?_, by rw [hsign]; omega⟩
    by_cases hzero : bits % 8388608 = 0
    · exact .inl ⟨hzero, rfl⟩
    · exact .inr ⟨by omega, by omega, by omega, .inr hleast.symm⟩
  · next hfield =>
    refine ⟨_, _, _, hunpack, by omega, .inr ⟨by omega, by omega, by omega, .inl (by omega)⟩, ?_⟩
    rw [hsign]
    omega

/-- The sign of a 64-bit encoding. -/
def signBits (negative : Bool) : Nat := if negative then Nat.pow 2 63 else 0

/-- The sign is the first bit, and so the others do not reach it. -/
theorem signBits_div (negative : Bool) {bits : Nat} (h : bits < Nat.pow 2 63) :
    ((signBits negative + bits) / Nat.pow 2 63 % 2 == 1) = negative := by
  have h63 : Nat.pow 2 63 = 9223372036854775808 := rfl
  unfold signBits
  rw [h63] at h ⊢
  cases negative with
  | false => exact beq_eq_false_iff_ne.mpr (by simp only [Bool.false_eq_true, if_false]; omega)
  | true => exact beq_iff_eq.mpr (by simp only [if_true]; omega)

/-- What the encoding of a full significand is taken apart into. -/
theorem unpack_double {n : Nat} {e : Int} (negative : Bool) (hlow : Nat.pow 2 52 ≤ n)
    (hhigh : n < Nat.pow 2 53) (hleast : -1074 ≤ e) (hmost : e ≤ 971) {bits : Nat}
    (hbits : bits = signBits negative + double.magnitude n e) :
    double.unpack bits = .finite negative n e ∧ bits < UInt64.size ∧
      bits / Nat.pow 2 52 % Nat.pow 2 11 ≠ 2047 := by
  have h52 : Nat.pow 2 52 = 4503599627370496 := rfl
  have h53 : Nat.pow 2 53 = 9007199254740992 := rfl
  have h63 : Nat.pow 2 63 = 9223372036854775808 := rfl
  have h11 : Nat.pow 2 11 = 2048 := rfl
  have hsize : UInt64.size = 18446744073709551616 := rfl
  have hplaces : double.precision - 1 = 52 := rfl
  have hlast : double.leastExponent = -1074 := rfl
  have hwidth : double.exponentBits = 11 := rfl
  have hmagnitude : double.magnitude n e = (e + 1074).toNat * 4503599627370496 + n := by
    have hinfinity : double.infinityBits = 9218868437227405312 := rfl
    unfold magnitude
    rw [hinfinity, hplaces, hlast, h52, show e - -1074 = e + 1074 by omega]
    exact Nat.min_eq_left (by omega)
  -- the powers are numbers from here on, and the rest is arithmetic
  rw [h52] at hlow
  rw [h53] at hhigh
  rw [hmagnitude] at hbits
  have hfits : (e + 1074).toNat * 4503599627370496 + n < Nat.pow 2 63 := by
    rw [h63]
    omega
  have hsign := signBits_div negative hfits
  rw [← hbits] at hsign
  have hsigned : signBits negative = 0 ∨ signBits negative = 9223372036854775808 := by
    cases negative
    · exact .inl rfl
    · exact .inr rfl
  -- the significand is full, and so its first bit counts one up in the field of the exponent
  have hfield : bits / 4503599627370496 % 2048 = (e + 1075).toNat := by omega
  have hfraction : bits % 4503599627370496 = n - 4503599627370496 := by omega
  refine ⟨?_, by omega, by rw [h52, h11, hfield]; omega⟩
  have hsignificand : 4503599627370496 + (n - 4503599627370496) = n := by omega
  have hexponent : -1074 + (((e + 1075).toNat : Nat) : Int) - 1 = e := by omega
  have hnormal : ((e + 1075).toNat == 2048 - 1) = false ∧ ((e + 1075).toNat == 0) = false := by
    constructor <;> rw [beq_eq_false_iff_ne] <;> omega
  unfold unpack
  dsimp only
  rw [hplaces, hlast, hwidth, hsign, h52, h11, hfield, hfraction, hsignificand,
    hexponent, hnormal.1, hnormal.2, if_neg Bool.false_ne_true, if_neg Bool.false_ne_true]

/-- An encoding is a sign in front of a magnitude. -/
theorem encode_double (negative : Bool) (n : Nat) (e : Int) :
    double.encode negative n e = signBits negative + double.encodeMagnitude n e := rfl

/-- A number as a 32-bit encoding has it is not too large. -/
theorem Canonical.magnitude_single {n : Nat} {e : Int} (h : single.Canonical n e) (he : e ≤ 104) :
    single.magnitude n e = (e + 149).toNat * Nat.pow 2 23 + n := by
  have h23 : Nat.pow 2 23 = 8388608 := rfl
  have hplaces : single.precision - 1 = 23 := rfl
  have hinfinity : single.infinityBits = 2139095040 := rfl
  have hlast : single.leastExponent = -149 := rfl
  have hsmall : n < 16777216 := h.small
  unfold magnitude
  rw [hinfinity, hplaces, hlast, h23, show e - -149 = e + 149 by omega]
  exact Nat.min_eq_left (by omega)

/-- A significand of 32 bits is filled up to one of 64. -/
theorem Canonical.widened {n : Nat} {e : Int} (h : single.Canonical n e) :
    Nat.pow 2 52 ≤ n * Nat.pow 2 (52 - n.log2) ∧ n * Nat.pow 2 (52 - n.log2) < Nat.pow 2 53 ∧
      n.log2 < 24 := by
  have hne : n ≠ 0 := Nat.ne_of_gt h.pos
  have hlog : n.log2 < 24 := (Nat.log2_lt hne).mpr h.small
  have hlow : Nat.pow 2 n.log2 ≤ n := Nat.log2_self_le hne
  have hhigh : n < Nat.pow 2 (n.log2 + 1) := Nat.lt_log2_self
  refine ⟨?_, ?_, hlog⟩
  · -- filled up, the highest bit is the one for `2 ^ 52`
    calc
      Nat.pow 2 52 = Nat.pow 2 n.log2 * Nat.pow 2 (52 - n.log2) := by
        rw [← pow_add, show n.log2 + (52 - n.log2) = 52 by omega]
      _ ≤ n * Nat.pow 2 (52 - n.log2) := Nat.mul_le_mul_right _ hlow
  · calc
      n * Nat.pow 2 (52 - n.log2) < Nat.pow 2 (n.log2 + 1) * Nat.pow 2 (52 - n.log2) :=
        Nat.mul_lt_mul_of_pos_right hhigh (pow_pos _)
      _ = Nat.pow 2 53 := by
        rw [← pow_add, show n.log2 + 1 + (52 - n.log2) = 53 by omega]

/-- **Widening is exact**: the 64-bit encoding stands for the same number, and narrowing it gives
the 32-bit encoding back. -/
theorem single_pack_double_pack {bits : Nat} (hb : bits < UInt32.size)
    (h : bits / Nat.pow 2 23 % Nat.pow 2 8 ≠ 255) :
    let wide := double.pack (single.unpack bits)
    wide < UInt64.size ∧ wide / Nat.pow 2 52 % Nat.pow 2 11 ≠ 2047 ∧
      single.pack (double.unpack wide) = bits := by
  obtain ⟨negative, n, e, hunpack, he, hn, hbits⟩ := exists_unpack_single hb h
  have hsign : ∀ q, single.encode negative 0 q = if negative then Nat.pow 2 31 else 0 :=
    fun _ => rfl
  rw [hunpack]
  dsimp only [pack]
  rw [encode_double]
  rcases hn with ⟨rfl, rfl⟩ | hn
  · -- zero keeps its sign
    have hzero : bits = if negative then Nat.pow 2 31 else 0 := by simpa using hbits
    have hmagnitude : double.encodeMagnitude 0 (-149) = 0 := rfl
    have hunpacked : double.unpack (signBits negative) = .finite negative 0 (-1074) := by
      cases negative <;> rfl
    rw [hmagnitude, Nat.add_zero, hunpacked, hzero]
    exact ⟨by cases negative <;> decide, by cases negative <;> decide, hsign _⟩
  · -- a significand is filled up with zeros from behind
    obtain ⟨hlow, hhigh, hlog⟩ := hn.widened
    have hleast : -149 ≤ e := hn.least
    have hwide : double.Canonical (n * Nat.pow 2 (52 - n.log2)) (e - (52 - n.log2 : Nat)) := by
      have hlast : double.leastExponent = -1074 := rfl
      exact ⟨Nat.mul_pos hn.pos (pow_pos _), hhigh, by omega, .inl hlow⟩
    rw [encodeMagnitude_of_mul hwide]
    obtain ⟨hdouble, hsize, hfield⟩ :=
      unpack_double negative hlow hhigh (e := e - (52 - n.log2 : Nat)) (by omega) (by omega) rfl
    refine ⟨hsize, hfield, ?_⟩
    rw [hdouble]
    dsimp only
    unfold encode
    rw [hn.encodeMagnitude_mul, hn.magnitude_single he, hbits]
    rfl

/-! ### Integers -/

/-- Rounding adds at most one. -/
theorem shiftRightEven_le (n k : Nat) : shiftRightEven n k ≤ n / Nat.pow 2 k + 1 := by
  unfold shiftRightEven
  dsimp only
  split
  · exact Nat.le_succ _
  split
  · exact Nat.le_refl _
  · have := Nat.mod_lt (n / Nat.pow 2 k) (show 0 < 2 by decide)
    omega

/-- The significand of an integer takes at most one place more than there is, by rounding up. -/
theorem scaled_le (n : Nat) :
    (if ((n.log2 : Int) - 52) ≤ 0 then n * Nat.pow 2 (52 - n.log2)
      else shiftRightEven n (n.log2 - 52)) ≤ Nat.pow 2 53 := by
  have hhigh : n < Nat.pow 2 (n.log2 + 1) := Nat.lt_log2_self
  -- a number that has places to spare is filled up, and any other is rounded
  split
  · next hle =>
    refine Nat.le_of_lt (calc
      n * Nat.pow 2 (52 - n.log2) < Nat.pow 2 (n.log2 + 1) * Nat.pow 2 (52 - n.log2) :=
        Nat.mul_lt_mul_of_pos_right hhigh (pow_pos _)
      _ = Nat.pow 2 53 := by rw [← pow_add, show n.log2 + 1 + (52 - n.log2) = 53 by omega])
  · next hgt =>
    refine Nat.le_trans (shiftRightEven_le _ _) ((Nat.div_lt_iff_lt_mul (pow_pos _)).mpr ?_)
    rwa [← pow_add, show 53 + (n.log2 - 52) = n.log2 + 1 by omega]

/-- Integers of 64 bits are far from being too large. -/
theorem encodeMagnitude_double_le {n : Nat} (hn : n < Nat.pow 2 64) :
    double.encodeMagnitude n 0 ≤ 1085 * Nat.pow 2 52 + Nat.pow 2 53 := by
  by_cases hne : n = 0
  · subst hne
    exact Nat.zero_le _
  have hlog : n.log2 < 64 := (Nat.log2_lt hne).mpr hn
  have hplaces : double.precision - 1 = 52 := rfl
  have hprecision : (double.precision : Int) = 53 := rfl
  have hleast : double.leastExponent = -1074 := rfl
  -- the last place is never below the least exponent
  have hlast : max (0 + ((n.log2 : Int) + 1) - double.precision) double.leastExponent =
      n.log2 - 52 := by
    rw [hprecision, hleast]
    omega
  have hscaled := scaled_le n
  unfold encodeMagnitude
  dsimp only
  rw [beq_eq_false_iff_ne.mpr hne, if_neg Bool.false_ne_true, hlast, hplaces,
    show (0 - ((n.log2 : Int) - 52)).toNat = 52 - n.log2 by omega,
    show ((n.log2 : Int) - 52 - 0).toNat = n.log2 - 52 by omega]
  refine Nat.le_trans (Nat.min_le_left _ _) (Nat.add_le_add (Nat.mul_le_mul_right _ ?_) hscaled)
  rw [hleast]
  omega

end Format

/-- An integer that fits 64 bits is a finite number. -/
theorem isFinite_doubleOfInt {i : Int} (hlow : -0x8000000000000000 ≤ i)
    (hhigh : i < 0x10000000000000000) : (doubleOfInt i).isFinite = true := by
  have h52 : Nat.pow 2 52 = 4503599627370496 := rfl
  have h53 : Nat.pow 2 53 = 9007199254740992 := rfl
  have h11 : Nat.pow 2 11 = 2048 := rfl
  have hsize : UInt64.size = 18446744073709551616 := rfl
  have hbound : Format.double.encodeMagnitude i.natAbs 0 ≤ 1085 * Nat.pow 2 52 + Nat.pow 2 53 :=
    Format.encodeMagnitude_double_le (show i.natAbs < 18446744073709551616 by omega)
  have hsigned : Format.signBits (i < 0) = 0 ∨ Format.signBits (i < 0) = 9223372036854775808 := by
    cases decide (i < 0)
    · exact .inl rfl
    · exact .inr rfl
  unfold doubleOfInt
  rw [Format.encode_double]
  -- whatever the magnitude is, it does not reach the exponent of infinity
  generalize Format.double.encodeMagnitude i.natAbs 0 = magnitude at hbound ⊢
  generalize Format.signBits (i < 0) = sign at hsigned ⊢
  rw [h52, h53] at hbound
  refine isFinite_ofBits ?_ (by omega)
  rw [h52, h11]
  omega

/-- **Narrowing undoes widening.** -/
theorem narrow_widen {x : Float32} (h : x.isFinite = true) : narrow (widen x) = x := by
  obtain ⟨hsize, hfield, hpack⟩ :=
    Format.single_pack_double_pack x.toBits.toNat_lt ((isFinite_single_iff x).mp h)
  unfold narrow widen unpack unpackSingle
  rw [toBits_ofBits hfield hsize, hpack, UInt32.ofNat_toNat, ofBits_toBits]

/-- What is finite is so when it is widened. -/
theorem isFinite_widen {x : Float32} (h : x.isFinite = true) : (widen x).isFinite = true := by
  obtain ⟨hsize, hfield, -⟩ :=
    Format.single_pack_double_pack x.toBits.toNat_lt ((isFinite_single_iff x).mp h)
  exact isFinite_ofBits hfield hsize

end Playtest.Number
