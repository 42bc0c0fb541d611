/-
MuxControl.Service.Client — what clients see of the server.

A client reaches the server through the loopback interface, which may
refuse every connection. A conversation sends all it has to say, ends
its input, and listens until the server is done.
-/
import MuxControl.Service.Server

namespace MuxControl

/-- How the loopback interface treats connections to a listening port. -/
inductive Loopback where
  | carrying
  | refusing
deriving DecidableEq, Repr, Inhabited

/-- Why a client has no connection. -/
inductive ConnectError where
  | notListening
  | refused
deriving DecidableEq, Repr, Inhabited

/-- The name of a connection error. -/
def ConnectError.name : ConnectError → String
  | .notListening => "not_listening"
  | .refused => "refused"

/-- What a client heard: the greeting and what followed it, and whether
its request was seen to wait. -/
structure Reply where
  banner : String
  body : String
  pendingSeen : Bool
deriving DecidableEq, Repr, Inhabited

namespace Server

/-- Whether a client can connect. -/
def reach (loopback : Loopback) (s : Server) : Except ConnectError Unit :=
  if s.listening.isNone then .error .notListening
  else match loopback with
    | .carrying => .ok ()
    | .refusing => .error .refused

/-- A conversation. If the session comes to wait for a document, the
control side does in the meantime what `meanwhile` says, from its own
state `control`. -/
def converse {σ : Type} (loopback : Loopback) (now : Instant) (bytes : Wire.Bytes)
    (meanwhile : σ → Server → σ × Server) (control : σ) (s : Server) :
    Except ConnectError Reply × σ × Server :=
  match s.reach loopback with
  | .error e => (.error e, control, s)
  | .ok () =>
    let (banner, s) := s.welcome none
    let (early, s) := s.receive now bytes
    let (onEnd, s) := s.endInput now
    let awaited := s.station.handoff.isAwaited
    let (control, s) := if awaited then meanwhile control s else (control, s)
    let (late, s) := s.proceed now
    (.ok ⟨banner, early ++ onEnd ++ late, awaited⟩, control, s)

end Server

end MuxControl
