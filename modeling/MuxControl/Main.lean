/-
MuxControl.Main — the command line of the program.

`serve` runs the service: it listens on the loopback interface, serves
one client after another, makes a pass of the control side ten times a
second, and follows its configuration file until it is told to
terminate. Every other command line is the client's: it asks a running
service one thing and prints the answer.

This module only moves bytes between sockets, files and the library;
what is read, answered and decided is in the modules it imports.
-/
import MuxControl.Console.Query
import MuxControl.Console.Service
import Std.Async.Signal
import Std.Async.TCP
import Std.Async.Timer

open MuxControl MuxControl.Console
open Std.Async Std.Net

namespace MuxControl.Main

/-! ## Files, ports and output -/

/-- What stands under a path. -/
def readContent (path : String) : IO FileContent := do
  try
    let content ← IO.FS.readBinFile path
    return .bytes content.toList
  catch
    | .noFileOrDirectory .. => return .missing
    | .inappropriateType .. => return .directory
    | e => return .unreadable (toString e)

/-- What stands under a path, if there is one. -/
def readContent? : Option String → IO (Option FileContent)
  | none => return none
  | some path => return some (← readContent path)

/-- The address of a port on the loopback interface. -/
def loopbackAddress (port : Port) : SocketAddress :=
  .v4 ⟨.ofParts 127 0 0 1, port.toUInt16⟩

/-- A listening socket with its port, or the reason why there is none. -/
def openSocket (port : Port) : IO (Except String (Port × TCP.Socket.Server)) := do
  try
    let socket ← TCP.Socket.Server.mk
    socket.bind (loopbackAddress port)
    socket.listen 128
    return .ok ((← socket.getSockName).port.toNat, socket)
  catch e => return .error (toString e)

/-- The library's view of a socket that was opened: its port. -/
def outcome (opened : Except String (Port × TCP.Socket.Server)) : Binder :=
  fun _ => opened.map Prod.fst

/-- Print events, one on a line. -/
def printEvents (events : List Event) : IO Unit := do
  for event in events do
    let fields := event.fields.map fun (key, shown) => " " ++ key ++ "=" ++ shown
    IO.println (event.severity.name ++ " " ++ event.message ++ String.join fields)
  (← IO.getStdout).flush

/-- Write what a command leaves, and answer its exit code. -/
def finish (result : Finish) : IO UInt32 := do
  IO.print result.output
  IO.eprint result.errors
  return result.exitCode.toUInt32

/-! ## The service -/

/-- A running service: its state, the socket it listens on, its client,
the instant since which the client's session stands where it stands, and
what was last seen of the configuration file. -/
structure Running where
  service : Service
  socket : Option TCP.Socket.Server
  client : Option TCP.Socket.Client := none
  since : Instant := 0
  file : Option (String × FileContent) := none

/-- What happens next. -/
inductive Happening where
  | tick
  | connected (client : TCP.Socket.Client)
  | received (bytes : Option ByteArray)
  | broken (reason : String)

/-- The session being served. -/
def Running.session (r : Running) : Option Session := r.service.server.session?

/-- Send to the client; one that cannot be reached is left to itself. -/
def Running.send (r : Running) (text : String) : Async Unit :=
  match r.client with
  | none => pure ()
  | some client =>
    if text = "" then pure ()
    else try client.send text.toUTF8 catch _ => pure ()

/-- Take the server to its next state, send what it says, print what it
reports, and leave the client once its session is over. -/
def Running.update (r : Running) (now : Instant) (step : Server → String × Server) :
    Async Running := do
  let (text, server) := step r.service.server
  r.send text
  let (events, station) := server.station.takeLog
  printEvents events
  let after := { r with
    service := r.service.put (r.service.supervisor, { server with station := station }) }
  let moved := (after.session.map (·.stage)) ≠ (r.session.map (·.stage))
  let after := if moved then { after with since := now } else after
  match after.session, after.client with
  | none, some client =>
    try client.shutdown catch _ => pure ()
    return { after with client := none }
  | _, _ => return after

/-- Look at the configuration file, if one is followed. -/
def Running.follow (r : Running) : IO Running := do
  match r.file with
  | none => return r
  | some (path, seen) =>
    let content ← readContent path
    if content = seen then return r
    else return { r with
      file := some (path, content), service := r.service.onFileChange path content }

/-- Bring a restart that the last pass has made to its end. The socket is
closed before another one is opened. -/
def Running.settle (r : Running) : IO Running := do
  if r.service.attended.isIdle then return r
  let r := { r with socket := none }
  let opened ← openSocket r.service.server.settings.port
  return { r with
    service := r.service.settle (outcome opened), socket := opened.toOption.map Prod.snd }

/-- A pass of the control side, and what it means for the client. -/
def Running.pass (r : Running) (now : Instant) : Async Running := do
  let r ← r.follow
  let r ← { r with service := r.service.tick now }.settle
  let r ← r.update now (·.proceed now)
  let patience? := r.session.bind Session.patience?
  if patience?.any fun secs => seconds secs < now - r.since then r.update now Server.expire
  else return r

/-- Wait for what happens next. -/
def Running.next (r : Running) : Async Happening := do
  let clock := Selectable.case (← Selector.sleep 100) fun _ => pure Happening.tick
  let traffic := match r.client, r.socket with
    | some client, _ =>
      if r.session.any Session.ended then []
      else [.case (client.recvSelector 65536) fun bytes => pure (.received bytes)]
    | none, some socket => [.case socket.acceptSelector fun client => pure (.connected client)]
    | none, none => []
  try Selectable.one (clock :: traffic).toArray
  catch e => return .broken (toString e)

/-- What the service does about what happens. -/
def Running.react (r : Running) (now : Instant) : Happening → Async Running
  | .tick => r.pass now
  | .connected client =>
    { r with client := some client, since := now }.update now (·.welcome none)
  | .received (some bytes) => r.update now (·.receive now bytes.toList)
  | .received none => r.update now (·.endInput now)
  | .broken reason =>
    if r.client.isSome then r.update now (·.breakOff reason)
    else r.update now fun s => ("", s.acceptFault reason)

/-- Serve until one of the signals has come. -/
partial def Running.serve (r : Running) (signals : List (AsyncTask Int)) : Async Unit := do
  if ← signals.anyM fun signal => IO.hasFinished signal then pure ()
  else
    let happening ← r.next
    let now ← IO.monoMsNow
    serve (← r.react now happening) signals

/-- Run the service with the options of a command line. -/
def serve (options : ServiceOptions) : IO UInt32 := do
  let config ← readContent? options.config
  let document ← readContent? options.document
  -- The port to bind is known once the service is prepared.
  let planned := Service.boot Except.ok options.port config document
  match planned with
  | .error e => finish (.failed "" e.detail)
  | .ok service =>
    let opened ← openSocket service.server.settings.port
    match Service.boot (outcome opened) options.port config document with
    | .error e => finish (.failed "" e.detail)
    | .ok service =>
      let signals ← [Signal.sigterm, Signal.sigint].mapM fun signal => do
        (← Signal.Waiter.mk signal false).wait
      let file := do return (← options.config, ← config)
      let running : Running :=
        { service := service, socket := opened.toOption.map Prod.snd, file := file }
      (running.serve signals).block
      return 0

/-! ## The client -/

/-- The address of a host that is given by number or is the local one. -/
def hostAddress? (target : Target) : Option SocketAddress :=
  let host := if target.host = "localhost" then "127.0.0.1" else target.host
  (IPv4Addr.ofString host).map fun address => .v4 ⟨address, target.port.toUInt16⟩

/-- All bytes that come from a socket. -/
partial def receiveAll (socket : TCP.Socket.Client) (seen : ByteArray) : Async ByteArray := do
  match ← socket.recv? 65536 with
  | some bytes => receiveAll socket (seen ++ bytes)
  | none => return seen

/-- Send the lines of a query to a server, and take in all it sends. -/
def converse (address : SocketAddress) (lines : String) : Async ByteArray := do
  let socket ← TCP.Socket.Client.mk
  socket.connect address
  socket.send lines.toUTF8
  receiveAll socket .empty

/-- Ask a server one thing. -/
def ask (target : Target) (query : Query) : IO UInt32 := do
  let file ← readContent? query.file?
  match query.lines (file.getD .missing) with
  | .error e => finish (.failed "" e.detail)
  | .ok lines =>
    match hostAddress? target with
    | none => finish (.failed "" ("no address of " ++ target.host))
    | some address =>
      try
        let stream ← (converse address lines).block
        finish (listen stream.toList)
      catch e => finish (.failed "" (toString e))

/-! ## The command line -/

/-- What is shown to those who ask for help. -/
def helpText : String :=
  "serve [--config FILE] [--port PORT] [--document FILE]\n" ++
  "[--host HOST] [--port PORT] config | values | state | get-ptree | set-ptree FILE\n"

/-- End a command line that is not carried out. -/
def halt (reason : Halt) : IO UInt32 :=
  match reason with
  | .help => finish ⟨reason.exitCode, helpText, ""⟩
  | .misused => finish ⟨reason.exitCode, "", helpText⟩

/-- Carry out a command line. -/
def run : List String → IO UInt32
  | "serve" :: words =>
    match ServiceOptions.ofWords words with
    | .error reason => halt reason
    | .ok options => serve options
  | words =>
    match readQuery words with
    | .error reason => halt reason
    | .ok (target, query) => ask target query

end MuxControl.Main

/-- The program. -/
def main (args : List String) : IO UInt32 := MuxControl.Main.run args
