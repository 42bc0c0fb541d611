/-
MuxControl.Wire.Command — the commands of the management protocol, and
the greeting that opens every connection.
-/
import MuxControl.Json.Printer

namespace MuxControl.Wire

/-- A command line. -/
inductive Command where
  | config
  | values
  | state
  | setTree
  | getTree
  | unknown (line : String)
deriving DecidableEq, Repr, Inhabited

/-- The command that a line names, to the letter. -/
def Command.ofLine : String → Command
  | "config" => .config
  | "values" => .values
  | "state" => .state
  | "setptree" => .setTree
  | "getptree" => .getTree
  | line => .unknown line

/-- The label under which a command is counted. -/
def Command.label : Command → String
  | .config => "config"
  | .values => "values"
  | .state => "state"
  | .setTree => "setptree"
  | .getTree => "getptree"
  | .unknown _ => "invalid"

/-- The answer to a line that names no command. -/
def invalidCommandReply : String := "Invalid command\n"

/-- The greeting of a service: one line of JSON that names it. -/
def banner (name version : String) : String :=
  (Json.object [("service", .string (name ++ " " ++ version ++ " MGMT Server"))]).compact ++ "\n"

end MuxControl.Wire
