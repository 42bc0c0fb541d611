/-
MuxControl.Service.Server — the management server: its configuration,
its loop, and the status it shows.

Starting binds the configured port and sets off a loop that serves one
connection after another. The loop works under the settings it was
started with. However it ends, it does the same last: it closes the
hand-off and shows that it is not running, faulted, and stopped. The
parts that other threads can come between are operations of their own;
`start`, `stop` and `restart` put them together.
-/
import MuxControl.Service.Session

namespace MuxControl

/-- The state that the server shows. -/
inductive Phase where
  | stopped
  | starting
  | accepting
  | handling
  | stopping
deriving DecidableEq, Repr, Inhabited

/-- The word for a phase. -/
def Phase.name : Phase → String
  | .stopped => "Stopped"
  | .starting => "Starting"
  | .accepting => "Accepting"
  | .handling => "Handling"
  | .stopping => "Stopping"

/-- The phase with a number; numbers without one mean `stopped`. -/
def Phase.ofCode : Nat → Phase
  | 1 => .starting
  | 2 => .accepting
  | 3 => .handling
  | 4 => .stopping
  | _ => .stopped

/-- Why the server does not do what it was asked. -/
inductive ServerError where
  | bindFailed (reason : String)
  | acceptFailed (reason : String)
  | alreadyRunning
  | spawnFailed (reason : String)
  | runtimeFailed (reason : String)
deriving DecidableEq, Repr, Inhabited

/-- The wording of a server error. -/
def ServerError.message : ServerError → String
  | .bindFailed reason => "Failed to bind: " ++ reason
  | .acceptFailed reason => "Failed to accept: " ++ reason
  | .alreadyRunning => "management server is already running"
  | .spawnFailed reason => "failed to spawn thread: " ++ reason
  | .runtimeFailed reason => "failed to build runtime: " ++ reason

/-- A TCP port. Port 0 stands for any free one. -/
abbrev Port := Nat

/-- What binding a port brings: the port listened on, or the reason why
not. -/
abbrev Binder := Port → Except String Port

/-- The loop: the port it listens on, the settings it works under, the
session it serves, and whether it has ended by itself. -/
structure Worker where
  port : Port
  settings : ServerSettings
  session : Option Session := none
  finished : Bool := false
deriving DecidableEq, Repr, Inhabited

/-- The server. -/
structure Server where
  settings : ServerSettings
  station : Station
  worker : Option Worker := none
  phase : Phase := .stopped
  running : Bool := false
  faulted : Bool := false
  nextConnection : ConnectionId := 1
deriving Inhabited, Repr

namespace Server

/-- The port that the server listens on. -/
def listening (s : Server) : Option Port := s.worker.map Worker.port

/-- Whether a port is one that the configuration asks for. -/
def asksFor (s : Server) (port : Port) : Bool := s.settings.port = 0 || s.settings.port = port

/-- The session that the loop serves. -/
def session? (s : Server) : Option Session := s.worker.bind Worker.session

/-- Change the station. -/
def mapStation (s : Server) (f : Station → Station) : Server := { s with station := f s.station }

/-- What the loop does last. -/
def exitLoop (s : Server) : Server :=
  { s.mapStation (·.mapHandoff Handoff.closed) with
    running := false, faulted := true, phase := .stopped }

/-- The loop ends by itself; its place stays taken until somebody
clears it away. -/
def endLoop (s : Server) : Server :=
  match s.worker with
  | none => s
  | some w =>
    if w.finished then s
    else
      let station := (w.session.map fun session => session.letGo s.station).getD s.station
      { s with station := station, worker := some { w with session := none, finished := true } }
        |>.exitLoop

/-- The runtime of the loop cannot be built: the loop reports that and ends
by itself. -/
def failLoop (reason : String) (s : Server) : Server :=
  if s.worker.any fun w => !w.finished then
    let event := Event.loopFailed (ServerError.runtimeFailed reason).message
    (s.mapStation (·.report [event])).endLoop
  else s

/-- The loop says that it accepts connections. -/
def beginAccepting (s : Server) : Server := { s with phase := .accepting }

/-- Bind the configured port and set off the loop. -/
def launch (bind : Binder) (s : Server) : Except ServerError Port × Server :=
  match bind s.settings.port with
  | .error reason =>
    let error := ServerError.bindFailed reason
    (.error error,
      { s.mapStation (·.report [.startFailed error.message]) with
        worker := none, phase := .stopped })
  | .ok port =>
    (.ok port,
      { s.mapStation (·.mapHandoff Handoff.opened) with
        worker := some { port := port, settings := s.settings }
        phase := .starting, running := true, faulted := false })

/-- The part of a start that nothing else comes between. A loop that
has ended by itself is cleared away first. -/
def tryStart (bind : Binder) (s : Server) : Except ServerError Port × Server :=
  if s.worker.any fun w => !w.finished then (.error .alreadyRunning, s) else s.launch bind

/-- Start the server; on success its loop accepts connections. -/
def start (bind : Binder) (s : Server) : Except ServerError Port × Server :=
  match s.tryStart bind with
  | (.ok port, s) => (.ok port, s.beginAccepting)
  | (.error e, s) => (.error e, s)

/-- Take the loop out of its place. -/
def takeWorker (s : Server) : Option Worker × Server := (s.worker, { s with worker := none })

/-- Say that the server is stopping. -/
def beginStopping (s : Server) : Server := { s with phase := .stopping }

/-- A loop that was taken out of its place, told to stop, ends. One that
ended before does nothing more. -/
def finishWorker (w : Worker) (s : Server) : Server :=
  if w.finished then s
  else (s.mapStation fun station => (w.session.map (·.letGo station)).getD station).exitLoop

/-- Stop the server, if it has a loop. -/
def stop (s : Server) : Server :=
  match s.takeWorker with
  | (none, s) => s
  | (some w, s) => s.beginStopping.finishWorker w

/-- Stop the server if it listens, and start it. -/
def restart (bind : Binder) (s : Server) : Server :=
  let s := s.mapStation (·.mapMetrics Metrics.countRestart)
  let s := if s.listening.isSome then s.stop else s
  match s.start bind with
  | (.ok _, s) => s
  | (.error e, s) => s.mapStation (·.report [.restartFailed e.message])

/-- Put other settings in force, for the next start. Answers whether the
port is another one. -/
def updateSettings (s : Server) (settings : ServerSettings) : Bool × Server :=
  (s.settings.port ≠ settings.port, { s with settings := settings })

/-- Go by how far the session of the loop has come. -/
def follow (s : Server) (w : Worker) (connection : ConnectionId) (a : Advance) :
    String × Server :=
  match a.progress with
  | .waiting session =>
    (a.sent, { s with
      station := a.station, worker := some { w with session := some session }
      phase := .handling })
  | .finished result =>
    (a.sent, { s with
      station := a.station.recordEnd connection result
      worker := some { w with session := none }, phase := .accepting })

/-- Let the session of the loop make a step. Answers what it sends. -/
def onSession (s : Server) (step : Session → Station → Advance) : String × Server :=
  match s.worker with
  | some w =>
    match w.session with
    | some session => s.follow w session.connection (step session s.station)
    | none => ("", s)
  | none => ("", s)

/-- Accept a connection, unless one is being served. Answers the
greeting. -/
def accept (s : Server) (writeFault : Option String) : String × Server :=
  match s.worker with
  | some w =>
    if w.finished || w.session.isSome then ("", s)
    else
      let session : Session :=
        { connection := s.nextConnection, settings := w.settings, writeFault := writeFault }
      let s := { s.mapStation (·.mapMetrics Metrics.countConnection) with
        nextConnection := s.nextConnection + 1 }
      s.follow w session.connection (session.greet s.station)
  | none => ("", s)

/-- A panic of the session ends the loop. -/
def collapse (s : Server) : Server :=
  if s.session?.any Session.panics then s.endLoop else s

/-- A connection is accepted, and its session comes to read the command. -/
def welcome (s : Server) (writeFault : Option String) : String × Server :=
  (s.accept writeFault).map id collapse

/-- A connection could not be accepted. -/
def acceptFault (s : Server) (reason : String) : Server :=
  s.mapStation fun station =>
    (station.mapMetrics (·.countSessionError "accept")).report
      [.acceptFailed (ServerError.acceptFailed reason).message]

/-- The session receives bytes and goes on. -/
def receive (s : Server) (now : Instant) (bytes : Wire.Bytes) : String × Server :=
  s.onSession fun session => { session with unread := session.unread ++ bytes }.advance now

/-- The client sends no more, and the session goes on. -/
def endInput (s : Server) (now : Instant) : String × Server :=
  s.onSession fun session => { session with ended := true }.advance now

/-- The session goes on, since others may have answered it. -/
def proceed (s : Server) (now : Instant) : String × Server :=
  s.onSession fun session => session.advance now

/-- The connection breaks. -/
def breakOff (s : Server) (reason : String) : String × Server :=
  s.onSession fun session => session.breakOff reason

/-- The session has waited too long. -/
def expire (s : Server) : String × Server := s.onSession Session.expire

end Server

end MuxControl
