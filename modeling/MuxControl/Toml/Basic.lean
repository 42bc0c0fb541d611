/-
MuxControl.Toml.Basic — the tree that a TOML text denotes.

Members keep the order in which they were written. A table remembers
how it came to be, since that decides what may still be added to it: a
table that was only passed through on the way to another one may still
be opened by a header of its own, and one made by a dotted key only
takes further dotted keys. An inline table is complete as written.
-/
import MuxControl.Number.Binary64

namespace MuxControl.Toml

/-- A floating point value, with those that no digits write. -/
inductive FloatValue where
  | finite (value : Binary64)
  | infinite (negative : Bool)
  | nan
deriving DecidableEq, Repr, Inhabited

/-- A value without parts. Of a date or a time only the presence
matters. -/
inductive Scalar where
  | string (value : String)
  | integer (value : Int)
  | float (value : FloatValue)
  | boolean (value : Bool)
  | dateTime
deriving DecidableEq, Repr, Inhabited

/-- How a table came to be. -/
structure Origin where
  implicit : Bool
  dotted : Bool
deriving DecidableEq, Repr, Inhabited

/-- A table that a header opened, or the whole text. -/
def Origin.header : Origin := ⟨false, false⟩

/-- A table made on the way to another, by a header or by a dotted
key. -/
def Origin.passing (dotted : Bool) : Origin := ⟨true, dotted⟩

/-- A node of the tree. -/
inductive Node where
  | scalar (value : Scalar)
  | array (items : List Node)
  | inline (members : List (String × Node))
  | table (origin : Origin) (members : List (String × Node))
  | tables (items : List Node)
deriving Inhabited, Repr

end MuxControl.Toml
