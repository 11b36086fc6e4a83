import Playtest.Clock

/-!
# Times that have been summed up

A time that starts at zero and only has passed times added to it is a number again, and never below
zero (`Clock.zero_le_add`, `Clock.zero_le_forward`). Such times are ordered: of two of them one is
not more than the other (`Clock.lt_of_not_le`), which is what lets a run that has not timed out
conclude that its time is below the limit.

`0.0 ≤ x` is read off the unpacked number: `IsForward` lists the numbers from zero on, the negative
zero among them, and leaves out what is no number. Addition rounds and packs its result, so the crux
is that packing keeps the sign and never makes an infinite exponent out of a finite one
(`IsForward.unpack_pack`).
-/

namespace Playtest.Clock

open Float.Model Float.Model.UnpackedFloat

/-- The unpacked numbers from zero on. -/
inductive IsForward : UnpackedFloat → Prop
  | zero (s : Sign) : IsForward (.zero s)
  | infinity : IsForward (.infinity .positive)
  | finite (m : Nat) (e : Int) (hm : 0 < m) : IsForward (.finite .positive m e hm)

/-! ### The order -/

/-- When a number is not more than another one, as unpacked numbers are compared. -/
theorem le_iff (x y : Float) :
    x ≤ y ↔ (x.toModel.unpack.compare y.toModel.unpack).any (·.isLE) = true :=
  decide_eq_true_iff

/-- When a number is less than another one. -/
theorem lt_iff (x y : Float) :
    x < y ↔ x.toModel.unpack.compare y.toModel.unpack = some .lt := by
  refine (decide_eq_true_iff (p := x.toModel < y.toModel)).trans ?_
  change (_ == _) = true ↔ _
  rw [beq_iff_eq]

theorem le_of_lt {x y : Float} (h : x < y) : x ≤ y := by
  rw [lt_iff] at h
  rw [le_iff, h]
  rfl

/-- What zero is not more than. -/
theorem zero_le_iff (x : Float) : 0.0 ≤ x ↔ IsForward x.toModel.unpack := by
  rw [le_iff]
  change (UnpackedFloat.compare (.zero .positive) _).any _ = true ↔ _
  generalize x.toModel.unpack = u
  constructor
  · intro h
    -- of all unpacked numbers, those with a positive sign and the zeros are left
    rcases u with s | _ | s | ⟨s, m, e, hm⟩
    · cases s with
      | negative => exact absurd h (by decide)
      | positive => exact .infinity
    · exact absurd h (by decide)
    · exact .zero s
    · cases s with
      | negative => exact absurd h Bool.false_ne_true
      | positive => exact .finite m e hm
  · rintro (s | _ | ⟨m, e, hm⟩) <;> rfl

/-- Of two numbers from zero on, one is not more than the other. -/
theorem lt_of_not_le {x y : Float} (hx : 0.0 ≤ x) (hy : 0.0 ≤ y) (h : ¬ y ≤ x) : x < y := by
  rw [zero_le_iff] at hx hy
  rw [le_iff] at h
  rw [lt_iff]
  generalize x.toModel.unpack = u at *
  generalize y.toModel.unpack = v at *
  -- two finite numbers are compared by exponents and mantissas, which is a total order
  rcases hx with s | _ | ⟨m, e, hm⟩ <;> rcases hy with t | _ | ⟨n, d, hn⟩
  case finite.finite =>
    have hlt : ((compare d e).then (compare n m)).isLE = false := eq_false_of_ne_true h
    have hgt : (compare d e).then (compare n m) = .gt := by
      cases ho : (compare d e).then (compare n m) with
      | gt => rfl
      | lt | eq => rw [ho] at hlt; exact absurd hlt (by decide)
    have hswap := congrArg Ordering.swap hgt
    rw [Ordering.swap_then, Int.compare_swap, Nat.compare_swap] at hswap
    exact congrArg some hswap
  -- with a zero or an infinity, the kinds of the two numbers decide
  all_goals first | rfl | exact absurd rfl h

/-- What is more than zero is not at most zero. -/
theorem not_le_zero {x : Float} (h : 0.0 < x) : ¬ x ≤ 0.0 := by
  rw [lt_iff] at h
  rw [le_iff]
  change UnpackedFloat.compare (.zero .positive) _ = _ at h
  change ¬ (UnpackedFloat.compare _ (.zero .positive)).any _ = true
  generalize x.toModel.unpack = u at *
  -- only a positive number is more than zero, and the other cases contradict `h`
  rcases u with s | _ | s | ⟨s, m, e, hm⟩
  · cases s with
    | negative => exact absurd h (by decide)
    | positive => exact Bool.false_ne_true
  · exact absurd h (by decide)
  · exact absurd h (by rintro ⟨⟩)
  · cases s with
    | negative => exact absurd h (by rintro ⟨⟩)
    | positive => exact Bool.false_ne_true

/-! ### Sums -/

/-- A sign that was packed is found again. -/
theorem unpackSign_packComponents (f : Format) (s : Sign) (e : BitVec f.exponentBits)
    (m : BitVec f.mantissaBitsWithoutImplicit) :
    unpackSign (packComponents f s e m) = s.toBitVec := by
  ext i hi
  obtain rfl : i = 0 := Nat.lt_one_iff.mp hi
  delta unpackSign packComponents
  simp [BitVec.getLsbD_append, BitVec.getElem_append]

/-- The exponent of zero is not the one of infinity. -/
theorem zero_ne_allOnes (f : Format) : 0#f.exponentBits ≠ -1#_ := by
  intro h
  have hlt := Nat.one_lt_two_pow (Nat.ne_of_gt f.he)
  have h := congrArg BitVec.toNat h
  rw [BitVec.neg_one_eq_allOnes, BitVec.toNat_allOnes, BitVec.toNat_zero] at h
  omega

/-- What is picked out of numbers from zero on is one. -/
theorem IsForward.dite {c : Prop} [Decidable c] {u : c → UnpackedFloat} {v : ¬ c → UnpackedFloat}
    (hu : ∀ h, IsForward (u h)) (hv : ∀ h, IsForward (v h)) :
    IsForward (if h : c then u h else v h) := by
  by_cases h : c
  · rw [dif_pos h]
    exact hu h
  · rw [dif_neg h]
    exact hv h

/-- Bits with a plus sign are a number from zero on, unless they have the exponent of infinity and
are not infinite. -/
theorem IsForward.unpack {f : Format} {b : BitVec f.numBits}
    (hs : Sign.ofBitVec (unpackSign b) = .positive)
    (h : unpackExponent b = -1#_ → unpackMantissa b = 0#_) : IsForward (.unpack f b) := by
  unfold UnpackedFloat.unpack
  dsimp only
  rw [hs]
  refine iteInduction (fun he => ?_) fun _ => iteInduction (fun _ => ?_) fun _ => .finite ..
  · rw [if_pos (h he)]
    exact .infinity
  · exact .dite (fun _ => .zero _) fun _ => .finite ..

/-- Packed parts with a plus sign are a number from zero on, unless they stand for no number. -/
theorem IsForward.unpack_components {f : Format} {e : BitVec f.exponentBits}
    {m : BitVec f.mantissaBitsWithoutImplicit} (h : e = -1#_ → m = 0#_) :
    IsForward (.unpack f (packComponents f .positive e m)) := by
  refine .unpack ?_ ?_
  · rw [unpackSign_packComponents]
    rfl
  · rwa [unpackExponent_packComponents, unpackMantissa_packComponents]

/-- A packed zero is a zero. -/
theorem IsForward.unpack_zero (f : Format) (s : Sign) :
    IsForward (.unpack f (packedZero f s)) := by
  have hm : unpackMantissa (packComponents f s 0#_ 0#_) = 0#_ := unpackMantissa_packComponents ..
  have he : unpackExponent (packComponents f s 0#_ 0#_) = 0#_ := unpackExponent_packComponents ..
  have hfinite : ¬ unpackExponent (packComponents f s 0#_ 0#_) = -1#_ := by
    rw [he]
    exact zero_ne_allOnes f
  change IsForward (.unpack f (packComponents f s 0#_ 0#_))
  unfold UnpackedFloat.unpack
  dsimp only
  -- it is not taken for an infinity, and with its mantissa it is no small number either
  rw [if_neg hfinite, if_pos he, dif_pos hm]
  exact .zero _

/-- Packing keeps a number from zero on one, also where it rounds up to infinity. -/
theorem IsForward.unpack_pack {f : Format} {u : UnpackedFloat} (h : IsForward u) :
    IsForward (.unpack f (UnpackedFloat.pack f u)) := by
  cases h with
  | zero s => exact .unpack_zero f s
  | infinity => exact .unpack_components fun _ => rfl
  | finite m e hm =>
    unfold UnpackedFloat.pack
    dsimp only
    split
    · -- it is too large, and is packed as infinity
      exact .unpack_components fun _ => rfl
    next hb =>
    split
    · -- a normal number: the guard `hb` keeps its exponent below the one of infinity
      refine .unpack_components fun he => ?_
      have he := congrArg BitVec.toNat he
      rw [BitVec.toNat_ofNat, Nat.mod_eq_of_lt (by omega), BitVec.neg_one_eq_allOnes,
        BitVec.toNat_allOnes] at he
      omega
    · exact .unpack_components fun he => absurd he (zero_ne_allOnes f)

/-- Rounding keeps a positive number from zero on. -/
theorem IsForward.round (f : Format) (m : Nat) (e : Int) :
    IsForward (UnpackedFloat.round f .positive m e) := by
  unfold UnpackedFloat.round roundWithAccuracy
  exact .dite (fun _ => .zero _) fun _ => .finite ..

/-- So does bringing one into its normal form. -/
theorem IsForward.normalize (f : Format) (n : Nat) (e : Int) :
    IsForward (UnpackedFloat.normalize f n e .positive) := by
  unfold UnpackedFloat.normalize
  split
  · next h =>
    rw [Int.compare_eq_lt] at h
    omega
  · exact .zero _
  · exact .round ..

/-- **The sum of two unpacked numbers from zero on** is one. -/
theorem IsForward.add {f : Format} {u v : UnpackedFloat} (hu : IsForward u) (hv : IsForward v) :
    IsForward (.add f u v) := by
  rcases hu with s | _ | ⟨m, e, hm⟩ <;> rcases hv with t | _ | ⟨n, d, hn⟩
  case zero.zero =>
    -- two zeros make a zero, whatever their signs are
    change IsForward (if s == t then .zero s else .zero .positive)
    split <;> exact .zero _
  -- two positive numbers are added up and brought into normal form
  case finite.finite => exact .normalize f (_ + _) _
  all_goals first | exact .infinity | exact .finite ..

/-- **The sum of two times from zero on is one, too.** -/
theorem zero_le_add {x y : Float} (hx : 0.0 ≤ x) (hy : 0.0 ≤ y) : 0.0 ≤ x + y := by
  rw [zero_le_iff] at hx hy ⊢
  exact (hx.add hy).unpack_pack

/-- The time that has passed is never below zero, whatever the difference is. -/
theorem zero_le_forward (delta : Float) : 0.0 ≤ forward delta := by
  unfold forward
  split
  · next h => exact le_of_lt h
  · decide

end Playtest.Clock
