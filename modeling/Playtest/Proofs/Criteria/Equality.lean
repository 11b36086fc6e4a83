import Playtest.Criteria.Evaluation
import Playtest.Proofs.Clock
import Playtest.Proofs.Number.Narrowing

/-!
# Equal numbers

There are two operators that can ask for a number or for a vector of numbers: that a value equals
it, and that a value is in the range from it to itself. The main result,
`ValueOperator.equals_iff_range`, is that both ask for the same if it is a number, however it is
written. Of vectors, equality asks for more than the range: every component has to be written as it
is in the vector that is asked for, an integer as the same integer and a float as a float
(`Value.WrittenAlike`).

A range looks at what numbers are worth at every depth, and equality does so only where the whole
value is a number. Inside of vectors it compares the values themselves (`Value.same`), and
`Value.same_iff` says what that comes to. Both sides of `Value.same_iff` follow the shape of the
values, and so does its proof.
-/

namespace Playtest

open Playtest.Json Playtest.Number

/-! ### Floats -/

namespace Number

open Float.Model Float.Model.UnpackedFloat

/-- Comparing the other way round swaps the outcome. -/
theorem compare_swap (u v : UnpackedFloat) : u.compare v = (v.compare u).map Ordering.swap := by
  rcases u with s | _ | s | ⟨s, m, e, hm⟩ <;> rcases v with t | _ | t | ⟨t, n, d, hn⟩
  -- two finite numbers: by sign, by exponent, and then by mantissa
  case finite.finite =>
    unfold UnpackedFloat.compare
    cases s <;> cases t <;>
      first
      | rfl
      | simp only [Option.map_some, Ordering.swap_then, Int.compare_swap, Nat.compare_swap]
  -- everywhere else the signs decide
  all_goals (try cases s) <;> (try cases t) <;> rfl

/-- A finite number is equal to itself. -/
theorem compare_self {u : UnpackedFloat} (h : u.isFinite) : u.compare u = some .eq := by
  cases u with
  | infinity | notANumber => cases h
  | zero => rfl
  | finite s m e hm =>
    have hsame : (compare e e).then (compare m m) = .eq := by simp
    unfold UnpackedFloat.compare
    cases s <;> simp only [hsame, Ordering.swap_eq]

variable {x y : Float}

/-- What is neither above nor below is equal. -/
theorem le_and_le_iff : y ≤ x ∧ x ≤ y ↔ x == y := by
  rw [Clock.le_iff, Clock.le_iff, compare_swap]
  change _ ↔ (x.toModel.unpack.compare y.toModel.unpack == some .eq) = true
  rcases x.toModel.unpack.compare y.toModel.unpack with _ | _ | _ | _ <;> decide

/-- The same for numbers as they are packed. -/
theorem beq_self_of_isFinite (h : x.isFinite) : x == x := by
  change (x.toModel.unpack.compare x.toModel.unpack == some .eq) = true
  rw [compare_self h]
  rfl

end Number

/-! ### Numbers and vectors -/

namespace Json.Value

/-- A **number or a vector** of such values. -/
inductive Numeric : Value → Prop
  | int (n : Integer) : Numeric (.int n)
  | real (x : Real) : Numeric (.real x)
  | arr {items : List Value} (h : ∀ v ∈ items, Numeric v) : Numeric (.arr items)

mutual

/-- Two numeric values are **written alike** if they have the same shape, with an integer where the
other one has the same integer, and a float where the other one has a float. -/
def WrittenAlike : Value → Value → Prop
  | .int m, .int n => m.val = n.val
  | .real _, .real _ => True
  | .arr as, .arr vs => AllWrittenAlike as vs
  | _, _ => False

/-- Item by item. -/
def AllWrittenAlike : List Value → List Value → Prop
  | [], [] => True
  | a :: as, v :: vs => WrittenAlike a v ∧ AllWrittenAlike as vs
  | _, _ => False

end

variable {a v : Value} {y : Float}

/-! ### Numbers -/

/-- What is in the range from a number to itself is a number that equals it. -/
theorem inRange_iff_of_number (hv : v.asFloat? = some y) :
    inRange a v v ↔ ∃ x, a.asFloat? = some x ∧ x == y := by
  have hnone : a.asFloat? = none → inRange a v v = false := by
    -- what is no number is in no range of numbers
    intro ha
    cases v with
    | int | real => cases a <;> first | rfl | cases ha
    | null | bool | str | arr | obj => cases hv
  have hsome : ∀ {x}, a.asFloat? = some x → inRange a v v = (y ≤ x && x ≤ y) := by
    intro x ha
    -- whichever way the two are written, they are compared as floats
    cases v with
    | int | real =>
      cases hv
      cases a <;> cases ha <;> rfl
    | null | bool | str | arr | obj => cases hv
  cases ha : a.asFloat? with
  | none => simp [hnone ha]
  | some x => simp [hsome ha, ← le_and_le_iff]

/-- Equality with a number asks for a number that equals it, too. -/
theorem valuesEqual_iff_of_number (hv : v.asFloat? = some y) :
    valuesEqual a v ↔ ∃ x, a.asFloat? = some x ∧ x == y := by
  unfold valuesEqual
  rw [hv]
  cases ha : a.asFloat? with
  | none =>
    -- values of different kinds are not the same
    have hne : (a == v) = false := by
      cases v with
      | int | real => cases a <;> first | rfl | cases ha
      | null | bool | str | arr | obj => cases hv
    simp [hne]
  | some x => simp

/-! ### Vectors -/

/-- A number is in the range from itself to itself. -/
theorem inRange_self_of_number (hv : v.asFloat? = some y) : inRange v v v := by
  -- as floats both bounds are the number itself, which is finite
  refine (inRange_iff_of_number hv).mpr ⟨y, hv, beq_self_of_isFinite ?_⟩
  cases v with
  | int n =>
    cases hv
    exact isFinite_doubleOfInt n.lower n.upper
  | real x =>
    cases hv
    exact x.finite
  | null | bool | str | arr | obj => cases hv

mutual

/-- **When numeric values are the same**: they are equal as numbers, and written alike. -/
theorem same_iff : (v : Value) → v.Numeric → ∀ a, same a v ↔ inRange a v v ∧ WrittenAlike a v
  -- by the shape of the value on the right, and then of the one on the left
  | .int n, _, a => by
    cases a with
    | int m =>
      change (m.val == n.val) = true ↔ _ ∧ m.val = n.val
      rw [beq_iff_eq]
      -- integers that are the same are equal as numbers, so only one half needs an argument
      refine ⟨fun h => ⟨?_, h⟩, And.right⟩
      obtain rfl : m = n := by
        cases m
        cases h
        rfl
      exact inRange_self_of_number rfl
    | real | null | bool | str | arr | obj => simp [same, WrittenAlike]
  | .real y, _, a => by
    cases a with
    | real x =>
      rw [inRange_iff_of_number rfl]
      simp [same, WrittenAlike, asFloat?]
    -- what is of another kind is neither the same nor written alike
    | int | null | bool | str | arr | obj => simp [same, WrittenAlike]
  | .arr vs, hv, a => by
    cases a with
    | arr as =>
      cases hv with
      -- both sides go on with the items
      | arr h =>
        rw [same, inRange, WrittenAlike]
        exact sameItems_iff vs h as
    | int | real | null | bool | str | obj => simp [same, WrittenAlike]

/-- **When lists of numeric values are the same**: item by item. -/
theorem sameItems_iff : (vs : List Value) → (∀ v ∈ vs, v.Numeric) → ∀ as,
    sameItems as vs ↔ componentsInRange as vs vs ∧ AllWrittenAlike as vs
  | [], _, as => by cases as <;> simp [sameItems, componentsInRange, AllWrittenAlike]
  | v :: vs, h, as => by
    cases as with
    | nil => simp [sameItems, componentsInRange, AllWrittenAlike]
    | cons a as =>
      obtain ⟨hv, hvs⟩ := List.forall_mem_cons.mp h
      rw [sameItems, componentsInRange, AllWrittenAlike, Bool.and_eq_true, Bool.and_eq_true,
        same_iff v hv a, sameItems_iff vs hvs as]
      exact and_and_and_comm

end

end Json.Value

/-! ### Operators -/

namespace ValueOperator

variable {v : Value}

/-- **A value equals a number just if it is in the range from it to itself**, whether the numbers
are written as integers or as floats. It equals a vector of numbers just if it is in that range and
written like the vector. -/
theorem equals_iff_range (hv : v.Numeric) (a : Value) :
    (equals v).holds a ↔ (range v v).holds a ∧ (v.asFloat?.isSome ∨ a.WrittenAlike v) := by
  change valuesEqual a v ↔ inRange a v v ∧ _
  -- of a number it is not asked how it is written
  have number : ∀ {y}, v.asFloat? = some y →
      (valuesEqual a v ↔ inRange a v v ∧ (v.asFloat?.isSome ∨ a.WrittenAlike v)) := by
    intro y hy
    rw [Value.valuesEqual_iff_of_number hy, Value.inRange_iff_of_number hy]
    exact (and_iff_left (.inl (by rw [hy]; rfl))).symm
  cases hv with
  | int n => exact number rfl
  | real x => exact number rfl
  | @arr items h =>
    -- a vector is no number, so equality compares the values themselves
    have hequal : valuesEqual a (.arr items) = Value.same a (.arr items) := by
      unfold valuesEqual
      cases a.asFloat? <;> rfl
    rw [hequal, Value.same_iff _ (.arr h) a]
    exact and_congr_right fun _ => (or_iff_right Bool.false_ne_true).symm

/-- A statue with a position, which is in floats as all positions are, and with another
attribute. -/
def statue : Scene.Entity :=
  ⟨1, none, "Statue", "Statue", some [1.0, 2.0, 3.0], [("health", .ofInt 75)]⟩

/-- The place of the statue, written in integers. -/
def place : Value := .arr (([1, 2, 3] : List UInt32).map fun n => .int (.ofUInt32 n))

/-- The place is a vector of numbers. -/
theorem numeric_place : place.Numeric := by
  refine .arr fun v hv => ?_
  obtain ⟨n, -, rfl⟩ := List.mem_map.mp hv
  exact .int _

/-- The statue is in the range of its place. -/
theorem statue_in_range : ∃ position, statue.attribute? "position" = some position ∧
    (range place place).holds position ∧ ¬ (equals place).holds position :=
  ⟨.arr ([1.0, 2.0, 3.0].map .ofFloat), rfl, by decide +kernel, by decide +kernel⟩

/-- The health of the statue equals a float, since it is in the range of it. Its position, which is
in the range of its place, is not written like it, since it does not equal it. -/
theorem statue_is_compared :
    (∃ health number, statue.attribute? "health" = some health ∧ Value.Numeric number ∧
      (range number number).holds health ∧ (equals number).holds health) ∧
      ∃ position, statue.attribute? "position" = some position ∧ place.Numeric ∧
        (range place place).holds position ∧ ¬ position.WrittenAlike place := by
  have hnumber : Value.Numeric (.real ⟨75.0, by decide⟩) := .real _
  have hhealth : (range (.real ⟨75.0, by decide⟩) (.real ⟨75.0, by decide⟩)).holds (.ofInt 75) := by
    decide +kernel
  obtain ⟨position, hposition, hrange, hne⟩ := statue_in_range
  refine ⟨⟨_, _, rfl, hnumber, hhealth, (equals_iff_range hnumber _).mpr ⟨hhealth, .inl rfl⟩⟩,
    position, hposition, numeric_place, hrange, fun halike => ?_⟩
  exact hne ((equals_iff_range numeric_place position).mpr ⟨hrange, .inr halike⟩)

/-- Equality and range do not ask for the same of every vector of numbers. -/
theorem place_is_in_range_only :
    ¬ ∀ v : Value, v.Numeric → ∀ a, ((equals v).holds a ↔ (range v v).holds a) := by
  intro h
  obtain ⟨position, -, hrange, hne⟩ := statue_in_range
  exact hne ((h place numeric_place position).mpr hrange)

end ValueOperator

end Playtest
