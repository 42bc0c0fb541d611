/-
MuxControl.Service.Session — one client's conversation with the server.

A session greets its client, reads one command line and does what it
says. It goes on as far as the bytes received so far allow; where they
do not, it waits for more of them, for the end of the stream, or for
the document that it requested. A session that ends with an error sends
nothing after it; one that panics goes no further, and takes the loop
that serves it along.
-/
import MuxControl.Config.Settings
import MuxControl.Service.Station
import MuxControl.Text.Blank
import MuxControl.Wire.Command
import MuxControl.Wire.Line

namespace MuxControl

open Wire

/-- What a session may have waited for too long. -/
inductive Awaited where
  | command
  | document
deriving DecidableEq, Repr, Inhabited

/-- The words for it. -/
def Awaited.name : Awaited → String
  | .command => "command"
  | .document => "configuration document"

/-- Why a session ended before it was done. -/
inductive SessionError where
  | io (reason : String)
  | line (error : LineError)
  | document (error : DocumentError)
  | render (reason : String)
  | timedOut (what : Awaited)
  | disconnected
  | withdrawn
deriving DecidableEq, Repr, Inhabited

namespace SessionError

/-- The wording of a session error. -/
def message : SessionError → String
  | .io reason => "I/O error: " ++ reason
  | .line e => "protocol error: " ++ e.message
  | .document e => "rejected configuration document: " ++ e.message
  | .render reason => "failed to render response: " ++ reason
  | .timedOut what => "timed out waiting for " ++ what.name
  | .disconnected => "client disconnected while waiting for the configuration document"
  | .withdrawn => HandoffError.withdrawn.message

/-- The label under which a session error is counted. -/
def kind : SessionError → String
  | .io _ => "io"
  | .line _ => "protocol"
  | .document _ => "document"
  | .render _ => "render"
  | .timedOut _ => "timeout"
  | .disconnected => "disconnected"
  | .withdrawn => "withdrawn"

/-- Whether the client is to blame. -/
def isClientSide : SessionError → Bool
  | .timedOut _ => true
  | .disconnected => true
  | .line _ => true
  | _ => false

/-- What the log says about a session error. -/
def event (connection : String) (e : SessionError) : Event :=
  if e.isClientSide then .sessionAborted connection e.message
  else .sessionFailed connection e.message

end SessionError

/-- The number of a connection; the first one is 1. -/
abbrev ConnectionId := Nat

/-- The name of a connection. -/
def connectionName (id : ConnectionId) : String := s!"mgmt-{id}"

/-- What a session waits for: the rest of the command line, the rest of
the line with a document, or the answer to a request. -/
inductive Stage where
  | command
  | document
  | answer (ticket : Ticket)
deriving DecidableEq, Repr, Inhabited

/-- A session that is not over: its connection, the settings it works
under, where it stands, the bytes received and not yet read, whether
the client will send no more, and why nothing can be sent, if so. -/
structure Session where
  connection : ConnectionId
  settings : ServerSettings
  stage : Stage := .command
  unread : Bytes := []
  ended : Bool := false
  writeFault : Option String := none
deriving DecidableEq, Repr, Inhabited

/-- How far a session has come. -/
inductive Progress where
  | waiting (session : Session)
  | finished (result : Except SessionError Unit)
deriving Repr

/-- What a session sends while it goes on, how far it comes, and the
station behind it. -/
structure Advance where
  sent : String
  progress : Progress
  station : Station

namespace Session

/-- The end of a session that sends its answer and closes. -/
def close (s : Session) (answer : String) (station : Station) : Advance :=
  match s.writeFault with
  | none => ⟨answer, .finished (.ok ()), station⟩
  | some reason => ⟨"", .finished (.error (.io reason)), station⟩

/-- The end of a session by an error. -/
def fail (error : SessionError) (station : Station) : Advance :=
  ⟨"", .finished (.error error), station⟩

/-- The session goes on later. -/
def wait (s : Session) (station : Station) : Advance := ⟨"", .waiting s, station⟩

/-- The next line, if it can be told: once its newline is there, the
limit is exceeded, or the client will send no more. Where the read has no
budget it never is. -/
def takeLine? (s : Session) : Option (Except LineError (Option String) × Session) :=
  match budget? s.settings.lineLimit with
  | none => none
  | some window =>
    let piece := nextPiece window s.unread
    if piece.ended || window ≤ piece.size || s.ended then
      some (piece.line s.settings.lineLimit, { s with unread := piece.rest })
    else none

/-- Whether the session panics as it comes to read a line: the read has no
budget. -/
def panics (s : Session) : Bool :=
  match s.stage with
  | .answer _ => false
  | _ => (budget? s.settings.lineLimit).isNone

/-- Go on with a request that was made. While it waits, what the client
sends is passed over. -/
def awaitAnswer (s : Session) (ticket : Ticket) (station : Station) : Advance :=
  match station.handoff.outcome? ticket with
  | some (.ready document) =>
    s.close document.wire (station.mapHandoff (·.abandon ticket))
  | some .pending => { s with stage := .answer ticket, unread := [] }.wait station
  | _ => fail .withdrawn (station.mapHandoff (·.abandon ticket))

/-- Go on with the line that holds a document. Without one, or with a
blank one, there is nothing to push. -/
def awaitDocument (s : Session) (station : Station) : Advance :=
  match s.takeLine? with
  | none => { s with stage := .document }.wait station
  | some (.error e, _) => fail (.line e) station
  | some (.ok line, s) =>
    let text := Text.trim (line.getD "")
    if text = "" then
      s.close "" (station.report [.noDocumentReceived (connectionName s.connection)])
    else
      match Document.parse text with
      | .error e => fail (.document e) station
      | .ok document => s.close "" (station.mapHandoff (·.push document))

/-- Do what a command says. -/
def obey (s : Session) (now : Instant) (command : Command) (station : Station) : Advance :=
  match command with
  | .config =>
    let (listing, roster) := station.roster.renderConfig
    s.close (listing.compact ++ "\n") { station with roster := roster }
  | .values =>
    let (listing, roster) := station.roster.renderValues
    s.close (listing.compact ++ "\n") { station with roster := roster }
  | .state =>
    let (listing, roster) := station.roster.renderState now
    s.close (listing.compact ++ "\n") { station with roster := roster }
  | .setTree => s.awaitDocument station
  | .getTree =>
    let (ticket, station) := station.request
    s.awaitAnswer ticket station
  | .unknown line =>
    s.close invalidCommandReply
      (station.report [.invalidCommand (connectionName s.connection) line])

/-- Go on with the command line. The end of the stream counts as an
empty line. -/
def awaitCommand (s : Session) (now : Instant) (station : Station) : Advance :=
  match s.takeLine? with
  | none => s.wait station
  | some (.error e, _) => fail (.line e) station
  | some (.ok line, s) =>
    let command := Command.ofLine (line.getD "")
    s.obey now command (station.mapMetrics (·.countCommand command.label))

/-- Go on as far as possible. -/
def advance (s : Session) (now : Instant) (station : Station) : Advance :=
  match s.stage with
  | .command => s.awaitCommand now station
  | .document => s.awaitDocument station
  | .answer ticket => s.awaitAnswer ticket station

/-- Greet the client. -/
def greet (s : Session) (station : Station) : Advance :=
  match s.writeFault with
  | none => ⟨banner s.settings.serviceName s.settings.serviceVersion, .waiting s, station⟩
  | some reason => fail (.io reason) station

/-- The station without what the session still holds of it. -/
def letGo (s : Session) (station : Station) : Station :=
  match s.stage with
  | .answer ticket => station.mapHandoff (·.abandon ticket)
  | _ => station

/-- The connection breaks while the session reads. -/
def breakOff (s : Session) (reason : String) (station : Station) : Advance :=
  fail (match s.stage with
    | .answer _ => .disconnected
    | _ => .line (.failed reason)) (s.letGo station)

/-- How many seconds the session waits where it stands, unless it waits
without limit. A document line has as long as the command line. -/
def patience? (s : Session) : Option Nat :=
  match s.stage with
  | .answer _ => timeout? s.settings.documentTimeout
  | _ => timeout? s.settings.readTimeout

/-- The session has waited too long. -/
def expire (s : Session) (station : Station) : Advance :=
  fail (.timedOut (match s.stage with
    | .command => .command
    | _ => .document)) (s.letGo station)

end Session

/-- Count and report how a session ended. -/
def Station.recordEnd (station : Station) (connection : ConnectionId)
    (result : Except SessionError Unit) : Station :=
  match result with
  | .ok () => station
  | .error e =>
    (station.mapMetrics (·.countSessionError e.kind)).report
      [e.event (connectionName connection)]

end MuxControl
