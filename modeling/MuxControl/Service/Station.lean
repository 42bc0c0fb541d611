/-
MuxControl.Service.Station — what all sessions, the control side and the
producers of the inputs share: the hand-off of the document, the roster
of the inputs, the counters and the log.
-/
import MuxControl.Handoff
import MuxControl.Roster.Basic
import MuxControl.Service.Metrics

namespace MuxControl

/-- The shared parts of the service; the log is in the order of its
events. -/
structure Station where
  handoff : Handoff
  roster : Roster
  metrics : Metrics := {}
  log : List Event := []
deriving Inhabited, Repr

namespace Station

/-- A station with a document and without inputs. -/
def start (limits : Thresholds) (document : Document) : Station :=
  { handoff := .start document, roster := { limits := limits } }

/-- Add events to the log. -/
def report (s : Station) (events : List Event) : Station := { s with log := s.log ++ events }

/-- The log so far, and the station with an empty one. -/
def takeLog (s : Station) : List Event × Station := (s.log, { s with log := [] })

/-- Change the hand-off. -/
def mapHandoff (s : Station) (f : Handoff → Handoff) : Station := { s with handoff := f s.handoff }

/-- Change the counters. -/
def mapMetrics (s : Station) (f : Metrics → Metrics) : Station := { s with metrics := f s.metrics }

/-- Change the roster. -/
def mapRoster (s : Station) (f : Roster → Roster) : Station := { s with roster := f s.roster }

/-- Create an input that lists itself. -/
def enroll (s : Station) (name : String) (now : Instant) : Bool × InputId × Station :=
  let (listed, n, roster) := s.roster.enroll name now
  (listed, n, { s with roster := roster }.report (Roster.enrollEvents name listed))

/-- The control side publishes a document. -/
def publish (s : Station) (document : Document) : Bool × Station :=
  let (taken, handoff) := s.handoff.publish document
  (taken, { s with handoff := handoff })

/-- The control side takes over a pushed document. -/
def takePushed (s : Station) : Option Document × Station :=
  let (document, handoff) := s.handoff.takePushed
  (document, { s with handoff := handoff })

/-- Request the latest document. -/
def request (s : Station) : Ticket × Station :=
  let (ticket, handoff) := s.handoff.request
  (ticket, { s with handoff := handoff })

/-- All counters and the gauge of listed inputs. -/
def counters (s : Station) : List (String × Nat) := s.metrics.listing s.roster.gauge

end Station

end MuxControl
