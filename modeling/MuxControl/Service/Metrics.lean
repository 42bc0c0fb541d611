/-
MuxControl.Service.Metrics — the counters of the service.

A counter appears in the listing once it has been counted up.
-/
import MuxControl.Keyed

namespace MuxControl

/-- Counters of connections, of commands by label, of sessions that
failed by kind of error, and of restarts. -/
structure Metrics where
  connections : Nat := 0
  commands : List (String × Nat) := []
  sessionErrors : List (String × Nat) := []
  restarts : Nat := 0
deriving DecidableEq, Repr, Inhabited

namespace Metrics

/-- Count up one counter of a family. -/
def bump (label : String) (family : List (String × Nat)) : List (String × Nat) :=
  Keyed.put label ((Keyed.get? label family).getD 0 + 1) family

/-- Count a connection. -/
def countConnection (m : Metrics) : Metrics := { m with connections := m.connections + 1 }

/-- Count a command. -/
def countCommand (m : Metrics) (label : String) : Metrics :=
  { m with commands := bump label m.commands }

/-- Count a session that failed, or an accept that did. -/
def countSessionError (m : Metrics) (kind : String) : Metrics :=
  { m with sessionErrors := bump kind m.sessionErrors }

/-- Count a restart. -/
def countRestart (m : Metrics) : Metrics := { m with restarts := m.restarts + 1 }

/-- A counter that has been counted up, under its name. -/
def counter (name : String) (count : Nat) : List (String × Nat) :=
  if count = 0 then [] else [(name, count)]

/-- A family of counters, each under its name and label. -/
def labelled (name key : String) (family : List (String × Nat)) : List (String × Nat) :=
  family.map fun (label, count) => (name ++ "\x7b" ++ key ++ "=" ++ label ++ "\x7d", count)

/-- All counters that have been counted up, and the gauge of listed
inputs if it was ever set. -/
def listing (m : Metrics) (gauge : Option Nat) : List (String × Nat) :=
  counter "mgmt_connections_total" m.connections ++
  labelled "mgmt_commands_total" "command" m.commands ++
  labelled "mgmt_session_errors_total" "kind" m.sessionErrors ++
  (gauge.map fun count => ("mgmt_registered_inputs", count)).toList ++
  counter "mgmt_server_restarts_total" m.restarts

end Metrics

end MuxControl
