/-
MuxControl.Service.Signal — a stop signal and its listeners.

The owner of the signal triggers it, or goes away. A listener may ask
whether the signal was triggered, or wait for the end: it need not wait
once the signal was triggered or its owner is gone.
-/

namespace MuxControl

/-- A stop signal: whether it was triggered, and whether it still has
its owner. All its listeners see the same. -/
structure Signal where
  triggered : Bool := false
  owned : Bool := true
deriving DecidableEq, Repr, Inhabited

namespace Signal

/-- The owner triggers the signal; triggering again changes nothing. -/
def trigger (s : Signal) : Signal := { s with triggered := true }

/-- The owner goes away. -/
def disown (s : Signal) : Signal := { s with owned := false }

/-- Whether a listener sees the signal as triggered. -/
def isStopped (s : Signal) : Bool := s.triggered

/-- Whether a listener that waits for the end goes on at once. -/
def isOver (s : Signal) : Bool := s.triggered || !s.owned

/-- Whether the owner, if there still is one, has triggered it. -/
def ownerView (s : Signal) : Option Bool := if s.owned then some s.triggered else none

end Signal

end MuxControl
