/-
MuxControl.Json.Basic — JSON values.

An object is a map with its members in ascending order of their names;
a number is an integer or a finite binary floating point number, and
the two kinds are never equal.
-/
import MuxControl.Keyed
import MuxControl.Number.Binary64

namespace MuxControl

/-- A JSON value. -/
inductive Json where
  | null
  | bool (value : Bool)
  | int (value : Int)
  | float (value : Binary64)
  | string (value : String)
  | array (items : List Json)
  | object (members : List (String × Json))
deriving Inhabited, BEq, Repr

namespace Json

mutual

/-- Equality of values: floating point numbers are compared
numerically, so the two zeros are equal; an integer never equals a
floating point number. -/
def same : Json → Json → Bool
  | .null, .null => true
  | .bool a, .bool b => a == b
  | .int a, .int b => a == b
  | .float a, .float b => a.same b
  | .string a, .string b => a == b
  | .array a, .array b => sameItems a b
  | .object a, .object b => sameMembers a b
  | _, _ => false

/-- Equality of two sequences of values. -/
def sameItems : List Json → List Json → Bool
  | [], [] => true
  | x :: xs, y :: ys => same x y && sameItems xs ys
  | _, _ => false

/-- Equality of two sequences of members. -/
def sameMembers : List (String × Json) → List (String × Json) → Bool
  | [], [] => true
  | (k, x) :: xs, (l, y) :: ys => k == l && same x y && sameMembers xs ys
  | _, _ => false

end

/-- Build an object from members in any order; the last of two members
of one name stays. -/
def ofMembers (members : List (String × Json)) : Json :=
  .object (members.foldl (fun map (name, value) => Keyed.put name value map) [])

/-- The member of an object under a name. -/
def member? (name : String) : Json → Option Json
  | .object members => Keyed.get? name members
  | _ => none

end Json

end MuxControl
