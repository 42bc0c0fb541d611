/-
MuxControl.Document — the configuration document that clients push and
fetch.

A document is a JSON object; any other JSON text is refused. On the
wire it is sent in its pretty form, ended by a newline.
-/
import MuxControl.Json.Parser
import MuxControl.Json.Printer

namespace MuxControl

/-- A configuration document: the members of a JSON object. -/
structure Document where
  members : List (String × Json)
deriving Inhabited, BEq, Repr

/-- Why a text is no configuration document. -/
inductive DocumentError where
  | invalid (error : Json.Error)
  | notAnObject
deriving DecidableEq, Repr, Inhabited

/-- The wording of a refusal. -/
def DocumentError.message : DocumentError → String
  | .invalid e => "invalid JSON document: " ++ e.message
  | .notAnObject => "configuration document must be a JSON object"

namespace Document

/-- The document without members. -/
def empty : Document := ⟨[]⟩

/-- A document as a JSON value. -/
def toJson (d : Document) : Json := .object d.members

/-- A JSON value as a document. -/
def ofJson : Json → Except DocumentError Document
  | .object members => .ok ⟨members⟩
  | _ => .error .notAnObject

/-- Read a document from its text. -/
def parse (text : String) : Except DocumentError Document :=
  match Json.parse text with
  | .ok value => ofJson value
  | .error e => .error (.invalid e)

/-- The text sent to clients. -/
def wire (d : Document) : String := d.toJson.pretty ++ "\n"

/-- The document on one line. -/
def compact (d : Document) : String := d.toJson.compact

/-- Equality of documents, member by member. -/
def same (a b : Document) : Bool := a.toJson.same b.toJson

end Document

end MuxControl
