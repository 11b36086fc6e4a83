import Playtest.Criteria.Basic

/-!
# Keys of criteria

Every criteria in a list is addressed by a key: a name chosen for the list, and the positions that
lead to the criteria, each after a dot. The second member of the first criteria of `1/end` has the
key `1/end.0.1`. Vision requests and the memory of transient criteria go by these keys.
-/

namespace Playtest

/-- The address of a criteria. -/
abbrev Key := String

/-- The key of the member at a position. -/
def Key.member (key : Key) (position : Nat) : Key :=
  key ++ "." ++ String.ofList (Nat.toDigits 10 position)

namespace Criteria

mutual

/-- A criteria and everything below it with keys, each before its members. -/
def keyed (key : Key) : Criteria → List (Key × Criteria)
  | single v t test => [(key, single v t test)]
  | group v t join members => (key, group v t join members) :: keyedFrom key 0 members

/-- Criteria from a position of their list on with their keys. -/
def keyedFrom (parent : Key) : (position : Nat) → List Criteria → List (Key × Criteria)
  | _, [] => []
  | position, c :: cs =>
      keyed (parent.member position) c ++ keyedFrom parent (position + 1) cs

end

/-- All criteria of a list with their keys. -/
def withKeys (parent : Key) (cs : List Criteria) : List (Key × Criteria) := keyedFrom parent 0 cs

end Criteria

end Playtest
