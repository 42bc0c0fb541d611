/-
MuxControl.Config.Datum — a configuration value before its shape is
known, whichever notation it was written in.

The notations differ in three points, which are kept here: how a
floating point number is shown in an error, whether a list may be
longer than the record it stands for, and the order of a table's
members, which decides the error that is reported.
-/
import MuxControl.Json.Printer
import MuxControl.Text.Quoted
import MuxControl.Toml.Basic

namespace MuxControl

/-- A value of any shape. A floating point number is its text. -/
inductive Datum where
  | null
  | bool (value : Bool)
  | int (value : Int)
  | float (shown : String)
  | string (value : String)
  | list (bounded : Bool) (items : List Datum)
  | table (members : List (String × Datum))
deriving Inhabited, Repr

namespace Datum

/-- What an error says it found. -/
def found : Datum → String
  | .null => "null"
  | .bool b => s!"boolean `{b}`"
  | .int i => s!"integer `{i}`"
  | .float shown => s!"floating point `{shown}`"
  | .string s => "string " ++ Text.quoted s
  | .list _ _ => "sequence"
  | .table _ => "map"

mutual

/-- A JSON value. Its lists may not be longer than a record. -/
def ofJson : Json → Datum
  | .null => .null
  | .bool b => .bool b
  | .int i => .int i
  | .float x => .float (String.ofList (x.render Json.numberLayout))
  | .string s => .string s
  | .array items => .list true (ofJsonItems items)
  | .object members => .table (ofJsonMembers members)

/-- The items of a JSON array. -/
def ofJsonItems : List Json → List Datum
  | [] => []
  | x :: xs => ofJson x :: ofJsonItems xs

/-- The members of a JSON object. -/
def ofJsonMembers : List (String × Json) → List (String × Datum)
  | [] => []
  | (k, x) :: xs => (k, ofJson x) :: ofJsonMembers xs

end

/-- Errors show the floating point numbers of a TOML text positionally;
a tie goes to the greater digit. -/
def plainLayout : Layout := ⟨fun _ => true, .greater⟩

/-- How an error shows a floating point value of a TOML text. -/
def showFloat : Toml.FloatValue → String
  | .finite x => String.ofList (x.render plainLayout)
  | .infinite negative => if negative then "-inf" else "inf"
  | .nan => "NaN"

/-- A TOML value without parts; a date or a time passes for a table
without known members. -/
def ofScalar : Toml.Scalar → Datum
  | .string s => .string s
  | .integer i => .int i
  | .float x => .float (showFloat x)
  | .boolean b => .bool b
  | .dateTime => .table []

mutual

/-- A TOML node. -/
def ofToml : Toml.Node → Datum
  | .scalar x => ofScalar x
  | .array items => .list false (ofTomlItems items)
  | .inline members => .table (ofTomlMembers members)
  | .table _ members => .table (ofTomlMembers members)
  | .tables items => .list false (ofTomlItems items)

/-- The items of a TOML array. -/
def ofTomlItems : List Toml.Node → List Datum
  | [] => []
  | x :: xs => ofToml x :: ofTomlItems xs

/-- The members of a TOML table, in their order. -/
def ofTomlMembers : List (String × Toml.Node) → List (String × Datum)
  | [] => []
  | (k, x) :: xs => (k, ofToml x) :: ofTomlMembers xs

end

end Datum

/-- Why a value does not have the shape it should have. -/
inductive ShapeError where
  | invalidType (found expected : String)
  | invalidValue (value : Int) (expected : String)
  | tooManyItems (count : Nat)
deriving DecidableEq, Repr, Inhabited

/-- The wording of a shape error. -/
def ShapeError.message : ShapeError → String
  | .invalidType found expected => s!"invalid type: {found}, expected {expected}"
  | .invalidValue value expected => s!"invalid value: integer `{value}`, expected {expected}"
  | .tooManyItems count => s!"invalid length {count}, expected fewer elements in array"

namespace Datum

/-- A value of another shape than the expected one. -/
def mismatch {α : Type} (d : Datum) (expected : String) : Except ShapeError α :=
  .error (.invalidType d.found expected)

/-- A kind of integers: its name and its range. -/
structure IntKind where
  name : String
  least : Int
  greatest : Int

/-- An integer of a kind. -/
def readInt (kind : IntKind) : Datum → Except ShapeError Int
  | .int i =>
    if kind.least ≤ i ∧ i ≤ kind.greatest then .ok i else .error (.invalidValue i kind.name)
  | d => d.mismatch kind.name

/-- A natural number of a kind. -/
def readNat (kind : IntKind) (d : Datum) : Except ShapeError Nat :=
  (readInt kind d).map Int.toNat

/-- A text. -/
def readString : Datum → Except ShapeError String
  | .string s => .ok s
  | d => d.mismatch "a string"

/-- A truth value. -/
def readBool : Datum → Except ShapeError Bool
  | .bool b => .ok b
  | d => d.mismatch "a boolean"

/-- A field of a record: its name, and how a value changes the record. -/
structure RecordField (α : Type) where
  name : String
  read : Datum → α → Except ShapeError α

/-- A record over its defaults, from a table with some of its fields,
or from a list with the first of them. Members without a field are
passed over; the first value of a wrong shape is reported. -/
def readRecord {α : Type} (expected : String) (fields : List (RecordField α)) (defaults : α) :
    Datum → Except ShapeError α
  | .table members =>
    members.foldlM (fun record (name, value) =>
      match fields.find? (·.name == name) with
      | some field => field.read value record
      | none => .ok record) defaults
  | .list bounded items => do
    let record ← (fields.zip items).foldlM (fun record (field, value) => field.read value record)
      defaults
    if bounded && fields.length < items.length then .error (.tooManyItems items.length)
    else .ok record
  | d => d.mismatch expected

end Datum

end MuxControl
