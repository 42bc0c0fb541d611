/-
MuxControl.Service.Attended — a server with the control side that looks
after it, and the restarts that this one makes.

A restart that a pass makes runs on a thread of its own: when the pass is
over it has just been set off, and it comes to its end while other things
happen, the next passes among them. If no thread is had for it, that is
reported, and nothing else comes of it. The control side asks about the
last restart for which one was had.
-/
import MuxControl.Service.Restarts
import MuxControl.Service.Supervisor

namespace MuxControl

/-- Why the control side makes a restart. -/
inductive RestartCause where
  | portChanged
  | loopDown
deriving DecidableEq, Repr

/-- A restart that the control side has made. -/
structure MadeRestart where
  instant : Instant
  cause : RestartCause
deriving DecidableEq, Repr

/-- What is left of a restart for which no thread is had, for the given
reason. -/
def Server.missRestart (refusal : Option String) (s : Server) : Server :=
  match refusal with
  | none => s
  | some reason =>
    s.mapStation (·.report [.restartNotSpawned (ServerError.spawnFailed reason).message])

/-- A server with its control side and the restarts that this one makes:
those made so far, the latest one first, numbered from the first on; how
far each of them has come; and the number of the last one for which a
thread was had. -/
structure Attended where
  control : Supervisor
  restarts : Restarts Nat
  made : List MadeRestart := []
  latest : Option Nat := none
deriving Inhabited

namespace Attended

/-- The server. -/
def server (c : Attended) : Server := c.restarts.server

/-- A server and a control side that has made no restart yet. A restart
that is not made has nothing left to do. -/
def initial (s : Server) (v : Supervisor) : Attended where
  control := { v with lastRestart := none }
  restarts := ⟨s, fun _ => .done, s.worker.isSome⟩

/-- The control side and the server come out of something that both had a
part in. A loop that was started or has served somebody in it has begun
to accept. -/
def put (c : Attended) (after : Supervisor × Server) : Attended :=
  let begun := c.restarts.begun || after.2.worker ≠ c.server.worker
  { c with control := after.1, restarts := { c.restarts with server := after.2, begun := begun } }

/-- Whether the last restart for which a thread was had is over. -/
def isIdle (c : Attended) : Bool := c.latest.all fun n => c.restarts.stage n = .done

/-- The control side makes a restart, which begins if a thread is had. -/
def makeRestart (c : Attended) (now : Instant) (cause : RestartCause) (refusal : Option String) :
    Attended :=
  let (control, server) := c.control.makeRestart now (Server.missRestart refusal) c.server
  { control := control
    restarts :=
      if refusal.isNone then c.restarts.move c.made.length .checking server
      else { c.restarts with server := server }
    made := ⟨now, cause⟩ :: c.made
    latest := if refusal.isNone then some c.made.length else c.latest }

/-- The first part of a pass: the queued settings, and a restart for
another port. -/
def followSettings (c : Attended) (now : Instant) (refusal : Option String) : Attended :=
  let (portChanged, after) := c.control.applyQueued c.server
  if portChanged then (c.put after).makeRestart now .portChanged refusal else c.put after

/-- The second part of a pass: the documents. -/
def exchange (c : Attended) : Attended := c.put (c.control.exchange c.server)

/-- Whether the loop is down and a restart for it may be made. -/
def needsLoop (c : Attended) (now : Instant) : Bool :=
  c.server.faulted && c.isIdle && c.control.isDue now

/-- The third part of a pass: a restart for a loop that is down. -/
def watchLoop (c : Attended) (now : Instant) (refusal : Option String) : Attended :=
  if c.needsLoop now then
    (c.put (c.control, c.server.mapStation (·.report [.loopDown]))).makeRestart now .loopDown
      refusal
  else c

/-- A pass of the control side, at one instant from its beginning to its
end. -/
def tick (c : Attended) (now : Instant) (refusal : Option String) : Attended :=
  (c.followSettings now refusal).exchange.watchLoop now refusal

/-- The restarts that are under way, by their numbers. -/
def underWay (c : Attended) : List Nat :=
  (List.range c.made.length).filter fun n => c.restarts.stage n ≠ .done

/-- The restarts under way come to their ends, one after the other. -/
def settle (c : Attended) (bind : Binder) : Attended :=
  { c with restarts := c.underWay.foldl (fun r n => r.reached (Restarts.alone n bind)) c.restarts }

end Attended

end MuxControl
