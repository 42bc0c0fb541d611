/-
MuxControl.Service.Supervisor — the control side of the server: it
follows configuration changes, keeps the live document, and brings the
server back when its loop is down.

A pass of the supervisor takes the last configuration that was queued,
takes over a pushed document, answers a waiting request with the live
document, and restarts a faulted server. It makes at most one restart,
and one that is due to a fault only when the previous restart is over
and lies far enough back.
-/
import MuxControl.Service.Server

namespace MuxControl

/-- The shortest time between two restarts, if the second is due to a
fault. -/
def restartInterval : Nat := seconds 5

/-- The control side: the live document, the configuration in force, the
configurations queued by the watcher if there is one, the port that
overrides every configured one, and the instant of the last restart. -/
structure Supervisor where
  live : Document
  settings : Settings
  queue : Option (List Settings) := none
  portOverride : Option Port := none
  lastRestart : Option Instant := none
deriving Inhabited, Repr

namespace Supervisor

/-- Queue a configuration, if anybody listens. -/
def enqueue (v : Supervisor) (settings : Settings) : Supervisor :=
  { v with queue := v.queue.map (· ++ [settings]) }

/-- A configuration with the overriding port in place of its own. -/
def override (v : Supervisor) (settings : Settings) : Settings :=
  match v.portOverride with
  | none => settings
  | some port => { settings with server := { settings.server with port := port } }

/-- Put the last queued configuration in force, if there is one. Answers
whether the port has changed. -/
def applyQueued (v : Supervisor) (s : Server) : Bool × Supervisor × Server :=
  match v.queue.bind List.getLast? with
  | none => (false, v, s)
  | some queued =>
    let settings := v.override queued
    let s :=
      if settings.inputs ≠ v.settings.inputs then s.mapStation (·.report [.thresholdsFixed])
      else s
    let (portChanged, s) := s.updateSettings settings.server
    (portChanged, { v with queue := some [], settings := settings }, s)

/-- Take over a pushed document, and answer a waiting request. -/
def exchange (v : Supervisor) (s : Server) : Supervisor × Server :=
  let (pushed, station) := s.station.takePushed
  let v := { v with live := pushed.getD v.live }
  let station := if station.handoff.isAwaited then (station.publish v.live).2 else station
  (v, { s with station := station })

/-- Whether the last restart lies far enough back. -/
def isDue (v : Supervisor) (now : Instant) : Bool :=
  match v.lastRestart with
  | none => true
  | some last => restartInterval ≤ now - last

/-- Make a restart at an instant. -/
def makeRestart (v : Supervisor) (now : Instant) (restart : Server → Server) (s : Server) :
    Supervisor × Server :=
  ({ v with lastRestart := some now }, restart s)

/-- One pass, at an instant. `idle` tells whether no restart is under
way, and `restart` what a restart does to the server before the pass
goes on. -/
def tick (now : Instant) (idle : Bool) (restart : Server → Server) (v : Supervisor)
    (s : Server) : Supervisor × Server :=
  let (portChanged, v, s) := v.applyQueued s
  let (v, s) := if portChanged then v.makeRestart now restart s else (v, s)
  let (v, s) := v.exchange s
  if s.faulted && idle && v.isDue now then
    v.makeRestart now restart (s.mapStation (·.report [.loopDown]))
  else (v, s)

end Supervisor

end MuxControl
