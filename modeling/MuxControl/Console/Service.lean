/-
MuxControl.Console.Service — the command line of the service, and how
the service comes up.

The configuration is loaded first, then the document, and then the
server is started; the first step that fails ends the service. A port
given on the command line overrides the configured one for good.
-/
import MuxControl.Config.Reload
import MuxControl.Console.Arguments
import MuxControl.Console.Detail
import MuxControl.Service.Attended

namespace MuxControl.Console

/-- The options of the service: the file of its configuration, the port
that overrides the configured one, and the file of its document. -/
structure ServiceOptions where
  config : Option String := none
  port : Option Nat := none
  document : Option String := none
deriving DecidableEq, Repr, Inhabited

namespace ServiceOptions

/-- The options, each with its name and letter. -/
def setters : List (Setter ServiceOptions) :=
  [ ⟨"config", some 'c', fun value o =>
      (nonEmpty? value).map fun path => { o with config := some path }⟩,
    ⟨"port", some 'p', fun value o =>
      (portNumber? value).map fun n => { o with port := some n }⟩,
    ⟨"document", some 'd', fun value o =>
      (nonEmpty? value).map fun path => { o with document := some path }⟩ ]

/-- The options of a command line that holds nothing else. -/
def ofWords (words : List String) : Except Halt ServiceOptions := do
  let (options, rest) ← readOptions setters [] {} words
  if rest.isEmpty then return options else .error .misused

end ServiceOptions

/-- Why the service does not come up. -/
inductive StartError where
  | config (error : ConfigError)
  | unreadable (fault : FileFault)
  | document (error : DocumentError)
  | server (error : ServerError)
deriving DecidableEq, Repr, Inhabited

/-- A failed start in detail. -/
def StartError.detail : StartError → String
  | .config e => e.detail
  | .unreadable fault => fault.detail
  | .document e => e.detail
  | .server e => e.detail

/-- A service that is up: its server and its control side, and what follows
the configuration file if there is one. -/
structure Service where
  attended : Attended
  reloader : Option Reloader
deriving Inhabited

namespace Service

/-- The server. -/
def server (s : Service) : Server := s.attended.server

/-- The control side. -/
def supervisor (s : Service) : Supervisor := s.attended.control

/-- The control side and the server come out of something that both had a
part in. -/
def put (s : Service) (after : Supervisor × Server) : Service :=
  { s with attended := s.attended.put after }

/-- The configuration of a file, or the defaults without one. -/
def loadSettings : Option FileContent → Except StartError Settings
  | none => .ok {}
  | some file =>
    match Settings.load file with
    | .ok settings => .ok settings
    | .error e => .error (.config e)

/-- The document of a file, or the empty one without one. -/
def loadDocument : Option FileContent → Except StartError Document
  | none => .ok .empty
  | some file =>
    match file.text with
    | .error fault => .error (.unreadable fault)
    | .ok text =>
      match Document.parse text with
      | .ok document => .ok document
      | .error e => .error (.document e)

/-- The service with a configuration and a document, its server not
started yet. Only a configuration from a file is followed. -/
def prepare (port : Option Nat) (followed : Bool) (file : Settings) (document : Document) :
    Service :=
  let control : Supervisor :=
    { live := document, settings := file, portOverride := port
      queue := if followed then some [] else none }
  let settings := control.override file
  let server : Server := { settings := settings.server, station := .start settings.inputs document }
  { attended := .initial server { control with settings := settings }
    reloader := if followed then some ⟨file⟩ else none }

/-- Bring the service up; `config` and `document` are what stands under
the paths that were given. -/
def boot (bind : Binder) (port : Option Nat) (config document : Option FileContent) :
    Except StartError Service := do
  let settings ← loadSettings config
  let document ← loadDocument document
  let service := prepare port config.isSome settings document
  match service.server.start bind with
  | (.ok _, server) => return service.put (service.supervisor, server)
  | (.error e, _) => .error (.server e)

/-- The configuration file has changed. A configuration that it brings
is queued for the control side; the reason why it brings none is
reported under the path of the file. -/
def onFileChange (s : Service) (path : String) (file : FileContent) : Service :=
  match s.reloader with
  | none => s
  | some reloader =>
    let (reloader, result) := reloader.reload file
    let s := { s with reloader := some reloader }
    match result with
    | .ok (some settings) => s.put (s.supervisor.enqueue settings, s.server)
    | .ok none => s
    | .error e =>
      let event := Event.reloadRejected (Text.quoted path) e.message
      s.put (s.supervisor, s.server.mapStation (·.report [event]))

/-- A pass of the control side. A restart that it makes is under way when
it is over. -/
def tick (s : Service) (now : Instant) : Service :=
  { s with attended := s.attended.tick now none }

/-- The restarts under way come to their ends. -/
def settle (s : Service) (bind : Binder) : Service :=
  { s with attended := s.attended.settle bind }

end Service

end MuxControl.Console
