/-
MuxControl.Service.Event — what the service reports of itself in its
log, warnings and errors.
-/

namespace MuxControl

/-- The weight of a log event. -/
inductive Severity where
  | warning
  | error
deriving DecidableEq, Repr, Inhabited

/-- The word for a severity. -/
def Severity.name : Severity → String
  | .warning => "WARN"
  | .error => "ERROR"

/-- A warning or an error. The errors it is about are given by their
wording. -/
inductive Event where
  | doubleRegistration (input : String)
  | notRegistered (input : String)
  | invalidCommand (connection line : String)
  | noDocumentReceived (connection : String)
  | sessionAborted (connection error : String)
  | sessionFailed (connection error : String)
  | acceptFailed (error : String)
  | startFailed (error : String)
  | restartFailed (error : String)
  | restartNotSpawned (error : String)
  | loopFailed (error : String)
  | loopDown
  | thresholdsFixed
  | reloadRejected (path error : String)
deriving DecidableEq, Repr, Inhabited

namespace Event

/-- How grave an event is. -/
def severity : Event → Severity
  | .invalidCommand _ _ | .noDocumentReceived _ | .sessionAborted _ _ | .loopDown
  | .thresholdsFixed => .warning
  | _ => .error

/-- The text of an event. -/
def message : Event → String
  | .doubleRegistration _ => "Double registration in MGMT server"
  | .notRegistered _ => "Input was not registered"
  | .invalidCommand _ _ => "Invalid MGMT command"
  | .noDocumentReceived _ => "MGMT: No JSON data received"
  | .sessionAborted _ _ => "MGMT session aborted"
  | .sessionFailed _ _ => "MGMT server caught error"
  | .acceptFailed _ => "MGMT: Error accepting connection"
  | .startFailed _ => "MGMT server failed to start"
  | .restartFailed _ => "MGMT server restart failed"
  | .restartNotSpawned _ => "Failed to spawn MGMT restart"
  | .loopFailed _ => "MGMT server loop failed"
  | .loopDown => "MGMT server loop is down, restarting"
  | .thresholdsFixed => "Input threshold changes take effect after a process restart"
  | .reloadRejected _ _ => "Config reload rejected, keeping current configuration"

/-- The named parts of an event. -/
def fields : Event → List (String × String)
  | .doubleRegistration input => [("input", input)]
  | .notRegistered input => [("input", input)]
  | .invalidCommand connection line => [("connection_id", connection), ("command", line)]
  | .noDocumentReceived connection => [("connection_id", connection)]
  | .sessionAborted connection error => [("connection_id", connection), ("error", error)]
  | .sessionFailed connection error => [("connection_id", connection), ("error", error)]
  | .acceptFailed error => [("error", error)]
  | .startFailed error => [("error", error)]
  | .restartFailed error => [("error", error)]
  | .restartNotSpawned error => [("error", error)]
  | .loopFailed error => [("error", error)]
  | .loopDown => []
  | .thresholdsFixed => []
  | .reloadRejected path error => [("path", path), ("error", error)]

end Event

end MuxControl
