/-
MuxControl.Service.Restarts — restarts that are under way.

A restart that has been set off runs beside everything else. It looks
whether the server listens; if so it takes the loop out of its place,
says that the server is stopping and tells the loop to stop, and joins it
once it has ended; then it starts the server. Each of these is one act,
and so is the end of a loop; the acts of different restarts come in any
order. An act that is not possible where it stands changes nothing.
-/
import MuxControl.Service.Server

namespace MuxControl

/-- Where a restart stands: about to look whether the server listens, to
take the loop, to tell the loop that it holds to stop; waiting for that
loop to end; about to join it, and to start the server; done. A loop that
is held has begun to accept or has not. -/
inductive RestartStage where
  | checking
  | taking
  | telling (w : Worker) (begun : Bool)
  | leaving (w : Worker) (begun : Bool)
  | joining
  | starting
  | done
deriving DecidableEq, Repr, Inhabited

/-- A server with restarts under way, and whether the loop in its place
has begun to accept. -/
structure Restarts (ι : Type) where
  server : Server
  stage : ι → RestartStage
  begun : Bool
deriving Inhabited

/-- What a restart does, what a loop does, and other settings being put
in force. -/
inductive RestartAct (ι : Type) where
  | check (i : ι)
  | take (i : ι)
  | tell (i : ι)
  | exit (i : ι)
  | join (i : ι)
  | start (i : ι) (bind : Binder)
  | begin
  | beginHeld (i : ι)
  | configure (settings : ServerSettings)

namespace Restarts

variable {ι : Type}

/-- A restart moves on to a stage, with the server changed. -/
def move [DecidableEq ι] (c : Restarts ι) (i : ι) (stage : RestartStage) (s : Server) :
    Restarts ι :=
  { c with server := s, stage := fun j => if j = i then stage else c.stage j }

/-- No loop in the place has begun to accept. -/
def unbegun (c : Restarts ι) : Restarts ι := { c with begun := false }

/-- An act happens, if it is possible. -/
def perform [DecidableEq ι] (c : Restarts ι) : RestartAct ι → Restarts ι
  | .check i =>
    match c.stage i with
    | .checking =>
      c.move i (if c.server.listening.isSome then .taking else .starting)
        (c.server.mapStation (·.mapMetrics Metrics.countRestart))
    | _ => c
  | .take i =>
    match c.stage i with
    | .taking =>
      match c.server.takeWorker with
      | (none, s) => c.move i .starting s
      | (some w, s) => (c.move i (.telling w c.begun) s).unbegun
    | _ => c
  | .tell i =>
    match c.stage i with
    | .telling w begun => c.move i (.leaving w begun) c.server.beginStopping
    | _ => c
  | .exit i =>
    match c.stage i with
    | .leaving w _ => c.move i .joining (c.server.finishWorker w)
    | _ => c
  | .join i =>
    match c.stage i with
    | .joining => c.move i .starting c.server
    | _ => c
  | .start i bind =>
    match c.stage i with
    | .starting =>
      match c.server.tryStart bind with
      | (.ok _, s) => (c.move i .done s).unbegun
      | (.error e, s) => c.move i .done (s.mapStation (·.report [.restartFailed e.message]))
    | _ => c
  | .begin =>
    if c.server.worker.any (!·.finished) && !c.begun then
      { c with server := c.server.beginAccepting, begun := true }
    else c
  | .beginHeld i =>
    match c.stage i with
    | .telling w false => c.move i (.telling w true) c.server.beginAccepting
    | .leaving w false => c.move i (.leaving w true) c.server.beginAccepting
    | _ => c
  | .configure settings => { c with server := (c.server.updateSettings settings).2 }

/-- What comes of acts; the latest one is the first one listed. -/
def reached [DecidableEq ι] (initial : Restarts ι) : List (RestartAct ι) → Restarts ι
  | [] => initial
  | act :: earlier => (reached initial earlier).perform act

/-- The acts of a restart from its beginning to its end, and of the loop
that it starts; the latest one first. -/
def alone (i : ι) (bind : Binder) : List (RestartAct ι) :=
  .begin :: .start i bind :: [.join i, .exit i, .tell i, .take i, .check i]

end Restarts

end MuxControl
