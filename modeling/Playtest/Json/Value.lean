import Playtest.Number.Decimal

/-!
# JSON values

A document's generic value. Integers are those that fit 64 bits with or without a sign, every other
number is a finite float, and an object's fields are kept in the order of their keys
(`Fields.insert`), so that equal documents are equal values.
-/

namespace Playtest.Json

/-- An **integer** that fits 64 bits, signed or unsigned. -/
structure Integer where
  val : Int
  lower : -0x8000000000000000 ≤ val
  upper : val < 0x10000000000000000
  deriving DecidableEq

/-- The integer, if it fits. -/
def Integer.ofInt? (n : Int) : Option Integer :=
  if h : -0x8000000000000000 ≤ n ∧ n < 0x10000000000000000 then some ⟨n, h.1, h.2⟩ else none

/-- Integers of 32 bits fit. -/
def Integer.ofUInt32 (n : UInt32) : Integer :=
  ⟨n.toNat, by omega, by have := n.toNat_lt; omega⟩

/-- Integers of 64 bits fit. -/
def Integer.ofUInt64 (n : UInt64) : Integer :=
  ⟨n.toNat, by omega, by have := n.toNat_lt; omega⟩

/-- Signed integers of 64 bits fit. -/
def Integer.ofInt64 (n : Int64) : Integer :=
  ⟨n.toInt, by have := n.le_toInt; omega, by have := n.toInt_lt; omega⟩

/-- Signed integers of 32 bits fit. -/
def Integer.ofInt32 (n : Int32) : Integer :=
  ⟨n.toInt, by have := n.le_toInt; omega, by have := n.toInt_lt; omega⟩

/-- A **finite float**. -/
structure Real where
  val : Float
  finite : val.isFinite = true

/-- A JSON value. -/
inductive Value where
  | null
  | bool (b : Bool)
  | int (n : Integer)
  | real (x : Real)
  | str (s : String)
  | arr (items : List Value)
  | obj (fields : List (String × Value))

/-- An object's fields. -/
abbrev Fields := List (String × Value)

/-- Puts a field in its place by key. A field with the same key is replaced. -/
def Fields.insert (key : String) (value : Value) : Fields → Fields
  | [] => [(key, value)]
  | (k, v) :: rest =>
      if key < k then (key, value) :: (k, v) :: rest
      else if key = k then (key, value) :: rest
      else (k, v) :: insert key value rest

/-- The value of a field. -/
def Fields.get? (fields : Fields) (key : String) : Option Value :=
  (fields.find? fun field => field.1 == key).map (·.2)

/-- Fields in the order of their keys; of equal keys the last counts. -/
def Fields.ofList (fields : List (String × Value)) : Fields :=
  fields.foldl (fun acc field => Fields.insert field.1 field.2 acc) []

namespace Value

/-- A float as a value. What is not finite has no JSON number and becomes null. -/
def ofFloat (x : Float) : Value :=
  if h : x.isFinite = true then .real ⟨x, h⟩ else .null

/-- A 32-bit float as a value, widened. -/
def ofSingle (x : Float32) : Value := ofFloat (Number.widen x)

/-- An optional value, null when absent. -/
def ofOption {α : Type} (write : α → Value) : Option α → Value
  | some a => write a
  | none => .null

/-- An integer; null if it is outside of what values can hold. -/
def ofInt (n : Int) : Value := ofOption .int (Integer.ofInt? n)

/-- A natural number; null if it is outside of what values can hold. -/
def ofNat (n : Nat) : Value := ofInt n

/-- The number a value stands for, as a float. -/
def asFloat? : Value → Option Float
  | .int n => some (Number.doubleOfInt n.val)
  | .real x => some x.val
  | _ => none

/-- The field of an object. -/
def field? : Value → String → Option Value
  | .obj fields, key => Fields.get? fields key
  | _, _ => none

mutual

/-- Whether two values are the same: numbers of one kind by their value, containers part by part. -/
def same : Value → Value → Bool
  | .null, .null => true
  | .bool a, .bool b => a == b
  | .int a, .int b => a.val == b.val
  | .real a, .real b => a.val == b.val
  | .str a, .str b => a == b
  | .arr as, .arr bs => sameItems as bs
  | .obj as, .obj bs => sameFields as bs
  | _, _ => false

/-- Item by item. -/
def sameItems : List Value → List Value → Bool
  | [], [] => true
  | a :: as, b :: bs => same a b && sameItems as bs
  | _, _ => false

/-- Field by field. -/
def sameFields : List (String × Value) → List (String × Value) → Bool
  | [], [] => true
  | (j, a) :: as, (k, b) :: bs => j == k && same a b && sameFields as bs
  | _, _ => false

end

instance : BEq Value := ⟨same⟩

mutual

/-- How deep containers are nested in a value; a scalar has depth zero. -/
def depth : Value → Nat
  | .arr items => depthItems items + 1
  | .obj fields => depthFields fields + 1
  | _ => 0

/-- The greatest depth among items. -/
def depthItems : List Value → Nat
  | [] => 0
  | v :: vs => max (depth v) (depthItems vs)

/-- The greatest depth among fields. -/
def depthFields : List (String × Value) → Nat
  | [] => 0
  | (_, v) :: vs => max (depth v) (depthFields vs)

end

mutual

/-- The value with the fields of all its objects in the order of their keys. -/
def sorted : Value → Value
  | .arr items => .arr (sortedItems items)
  | .obj fields => .obj (Fields.ofList (sortedFields fields))
  | v => v

/-- Each item with its fields in order. -/
def sortedItems : List Value → List Value
  | [] => []
  | v :: vs => sorted v :: sortedItems vs

/-- Each field's value with its fields in order. -/
def sortedFields : List (String × Value) → List (String × Value)
  | [] => []
  | (k, v) :: vs => (k, sorted v) :: sortedFields vs

end

end Value

end Playtest.Json
