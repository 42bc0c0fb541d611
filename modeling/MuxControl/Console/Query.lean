/-
MuxControl.Console.Query — the client's command line: what it asks the
server for, the lines it sends for it, and what it shows of the answer.

A document is sent on one line, since the server reads it as one. Of
the server's stream the first line is the greeting, which is shown
apart; an answer that is JSON is shown in its pretty form, any other as
it is, and a blank one not at all.
-/
import MuxControl.Console.Arguments
import MuxControl.Console.Detail
import MuxControl.Wire.Line

namespace MuxControl.Console

open Wire

/-- What the client asks for. -/
inductive Query where
  | config
  | values
  | state
  | getTree
  | setTree (file : String)
deriving DecidableEq, Repr, Inhabited

/-- Where the client finds the server. -/
structure Target where
  host : String := "127.0.0.1"
  port : Nat := 12720
deriving DecidableEq, Repr, Inhabited

namespace Target

/-- The options that name a target. -/
def setters : List (Setter Target) :=
  [ ⟨"host", none, fun value t => some { t with host := value }⟩,
    ⟨"port", some 'p', fun value t => (portNumber? value).map fun n => { t with port := n }⟩ ]

end Target

namespace Query

/-- The words that name a query without operands. -/
def ofName? : String → Option Query
  | "config" => some .config
  | "values" => some .values
  | "state" => some .state
  | "get-ptree" => some .getTree
  | _ => none

/-- Whether help may be asked for a word. -/
def hasHelp (word : String) : Bool :=
  (ofName? word).isSome || word = "set-ptree" || word = "help"

/-- The query of the words behind the options. -/
def ofWords : List String → Except Halt Query
  | [] => .error .misused
  | "help" :: words =>
    match words with
    | [] => .error .help
    | [word] => .error (if hasHelp word then .help else .misused)
    | _ => .error .misused
  | "set-ptree" :: words => do
    let file ← onlyPlain none words
    match nonEmpty? file with
    | some file => return .setTree file
    | none => .error .misused
  | name :: words =>
    match ofName? name with
    | none => .error .misused
    | some query => do
      let (_, rest) ← readOptions [] [] () words
      if rest.isEmpty then return query else .error .misused

end Query

/-- The target and the query of a client's command line. -/
def readQuery (words : List String) : Except Halt (Target × Query) := do
  let (target, words) ← readOptions Target.setters [] {} words
  return (target, ← Query.ofWords words)

/-- Why a query cannot be sent. -/
inductive QueryError where
  | unreadable (fault : FileFault)
  | malformed (error : Json.Error)
deriving DecidableEq, Repr, Inhabited

/-- A query error in detail. -/
def QueryError.detail : QueryError → String
  | .unreadable fault => fault.detail
  | .malformed e => e.detail

/-- The lines that push a JSON value. -/
def pushLines (value : Json) : String := "setptree\n" ++ value.compact ++ "\n"

/-- The path of the file that a query needs. -/
def Query.file? : Query → Option String
  | .setTree file => some file
  | _ => none

/-- The lines of a query; `file` is what stands under its path. -/
def Query.lines (file : FileContent) : Query → Except QueryError String
  | .config => .ok "config\n"
  | .values => .ok "values\n"
  | .state => .ok "state\n"
  | .getTree => .ok "getptree\n"
  | .setTree _ =>
    match file.text with
    | .error fault => .error (.unreadable fault)
    | .ok text =>
      match Json.parse text with
      | .error e => .error (.malformed e)
      | .ok value => .ok (pushLines value)

/-- What is shown of an answer. -/
def showAnswer (answer : String) : String :=
  if Text.isBlankText answer then ""
  else match Json.parse answer with
    | .ok value => value.pretty ++ "\n"
    | .error _ => answer

/-- A server's stream in two parts: the greeting up to its newline, and
everything behind it. -/
def splitGreeting (stream : Bytes) : Bytes × Bytes :=
  let greeting := stream.takeWhile (· ≠ newlineByte)
  (stream.take (greeting.length + 1), stream.drop (greeting.length + 1))

/-- What a command leaves when it is over. -/
structure Finish where
  exitCode : Nat
  output : String
  errors : String
deriving DecidableEq, Repr, Inhabited

/-- The end of a command that fails, after what it wrote before. -/
def Finish.failed (errors detail : String) : Finish := ⟨1, "", errors ++ failureLine detail⟩

/-- How the client shows that the server sent no text. -/
def notTextDetail : String :=
  showRecord "Custom"
    [("kind", "InvalidData"), ("error", Text.quoted FileFault.notUtf8.message)]

/-- What the client makes of all that the server sends. -/
def listen (stream : Bytes) : Finish :=
  let (greeting, answer) := splitGreeting stream
  match decode? greeting with
  | none => .failed "" notTextDetail
  | some greeting =>
    match decode? answer with
    | none => .failed greeting notTextDetail
    | some answer => ⟨0, showAnswer answer, greeting⟩

end MuxControl.Console
