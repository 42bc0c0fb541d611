/-
MuxControl.File — what a file holds when one tries to read its text.
-/

namespace MuxControl

/-- Why the text of a file cannot be had. -/
inductive FileFault where
  | missing
  | directory
  | notUtf8
  | other (reason : String)
deriving DecidableEq, Repr, Inhabited

/-- The wording of a file fault. -/
def FileFault.message : FileFault → String
  | .missing => "No such file or directory (os error 2)"
  | .directory => "Is a directory (os error 21)"
  | .notUtf8 => "stream did not contain valid UTF-8"
  | .other reason => reason

/-- What stands under a path. -/
inductive FileContent where
  | bytes (content : List UInt8)
  | missing
  | directory
  | unreadable (reason : String)
deriving DecidableEq, Repr, Inhabited

/-- The text of a file. -/
def FileContent.text : FileContent → Except FileFault String
  | .bytes content =>
    match String.fromUTF8? ⟨content.toArray⟩ with
    | some text => .ok text
    | none => .error .notUtf8
  | .missing => .error .missing
  | .directory => .error .directory
  | .unreadable reason => .error (.other reason)

end MuxControl
