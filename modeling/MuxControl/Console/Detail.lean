/-
MuxControl.Console.Detail — errors as a failing command shows them: by
their structure, with the names of their cases and parts.
-/
import MuxControl.Config.Source
import MuxControl.Document
import MuxControl.File
import MuxControl.Service.Server

namespace MuxControl

namespace Console

/-- A case with named parts. -/
def showRecord (name : String) (parts : List (String × String)) : String :=
  let shown := parts.map fun (key, part) => key ++ ": " ++ part
  name ++ " \x7b " ++ String.intercalate ", " shown ++ " \x7d"

/-- A case with parts in a row. -/
def showCase (name : String) (parts : List String) : String :=
  name ++ "(" ++ String.intercalate ", " parts ++ ")"

/-- An error number of the operating system. -/
def showSystemError (number : Nat) (kind text : String) : String :=
  showRecord "Os" [("code", toString number), ("kind", kind), ("message", Text.quoted text)]

/-- What a command that fails writes last. -/
def failureLine (detail : String) : String := "Error: " ++ detail ++ "\n"

end Console

open Console

/-- A file fault in detail. -/
def FileFault.detail : FileFault → String
  | .missing => showSystemError 2 "NotFound" "No such file or directory"
  | .directory => showSystemError 21 "IsADirectory" "Is a directory"
  | .notUtf8 =>
    showRecord "Error" [("kind", "InvalidData"), ("message", Text.quoted FileFault.notUtf8.message)]
  | .other reason => reason

/-- A JSON error in detail. -/
def Json.Error.detail (e : Json.Error) : String :=
  showCase "Error" [Text.quoted e.cause.message, "line: " ++ toString e.position.line,
    "column: " ++ toString e.position.column]

/-- A refused document in detail. -/
def DocumentError.detail : DocumentError → String
  | .invalid e => showCase "Parse" [e.detail]
  | .notAnObject => "NotAnObject"

/-- A violation in detail. -/
def Violation.detail (v : Violation) : String :=
  match v with
  | .lineLimitTooSmall limit => showCase v.name [toString limit]
  | .silenceLevelOutOfRange level => showCase v.name [toString level]
  | .unknownLogLevel level => showCase v.name [Text.quoted level]
  | .invalidMetricsAddress address => showCase v.name [Text.quoted address]
  | _ => v.name

/-- A configuration error in detail. -/
def ConfigError.detail : ConfigError → String
  | .unreadable fault => showCase "Io" [fault.detail]
  | .malformed => showCase "Parse" []
  | .shape e => showCase "Parse" [e.message]
  | .invalid violations =>
    showCase "Validation" ["[" ++ String.intercalate ", " (violations.map Violation.detail) ++ "]"]

/-- A server error in detail. -/
def ServerError.detail : ServerError → String
  | .bindFailed reason => showCase "Listener" [showCase "Bind" [reason]]
  | .acceptFailed reason => showCase "Listener" [showCase "Accept" [reason]]
  | .alreadyRunning => "AlreadyRunning"
  | .spawnFailed reason => showCase "Spawn" [reason]
  | .runtimeFailed reason => showCase "Runtime" [reason]

end MuxControl
