/-
MuxControl.Roster.Input — what an input of the multiplexer has reported,
and the reports rendered from it.

A tally collects reports since the last render and is cleared by it; the
health window lives on. Rendering the values clears the tally and shows
it; rendering the state clears it without showing it; observing the
state leaves it alone.
-/
import MuxControl.Health.Level
import MuxControl.Health.Window
import MuxControl.Json.Basic

namespace MuxControl

/-- What was reported since the last render. -/
structure Tally where
  minFill : Option Nat := none
  maxFill : Nat := 0
  peakLeft : Nat := 0
  peakRight : Nat := 0
  underruns : Nat := 0
  overruns : Nat := 0
deriving DecidableEq, Repr, Inhabited

/-- The values shown for an input; the peaks are in decibels, and the
least fill level is -1 if none was reported. -/
structure Values where
  minFill : Int
  maxFill : Nat
  peakLeft : Int
  peakRight : Int
  underruns : Nat
  overruns : Nat
deriving DecidableEq, Repr, Inhabited

/-- The greatest fill level that is shown as the least one. -/
def greatestMinFill : Nat := Word.max63

/-- What a tally shows. -/
def Tally.values (t : Tally) : Values where
  minFill := match t.minFill with
    | none => -1
    | some level => min level greatestMinFill
  maxFill := t.maxFill
  peakLeft := decibels t.peakLeft
  peakRight := decibels t.peakRight
  underruns := t.underruns
  overruns := t.overruns

/-- Values as JSON, in the order in which they are listed. -/
def Values.toJson (v : Values) : Json :=
  .object [("inputstat", .object [
    ("min_fill", .int v.minFill),
    ("max_fill", .int v.maxFill),
    ("peak_left", .int v.peakLeft),
    ("peak_right", .int v.peakRight),
    ("num_underruns", .int v.underruns),
    ("num_overruns", .int v.overruns)])]

/-- A state as JSON. -/
def InputState.toJson (s : InputState) : Json := .object [("state", .string s.name)]

/-- An input. Its own mark says whether it holds itself for registered. -/
structure Input where
  name : String
  limits : Thresholds
  marked : Bool
  lastState : InputState
  tally : Tally
  window : Window
deriving DecidableEq, Repr, Inhabited

namespace Input

/-- A new input, which has reported nothing. -/
def create (name : String) (limits : Thresholds) (now : Instant) : Input :=
  ⟨name, limits, false, .unknown, {}, .start now⟩

/-- Report the fill level of the buffer. -/
def reportLevel (i : Input) (now : Instant) (level : Nat) : Input :=
  { i with
    tally := { i.tally with
      minFill := some (match i.tally.minFill with
        | none => level
        | some least => min least level)
      maxFill := max i.tally.maxFill level }
    window := i.window.reportLevel now level }

/-- Whether a pair of samples counts as quiet: the level of the greater
one lies below the silence level. -/
def isQuiet (limits : Thresholds) (left right : Int) : Bool :=
  decibels (max (magnitude left) (magnitude right)) < limits.silenceLevel

/-- Report the peak samples of both channels. -/
def reportPeaks (i : Input) (left right : Int) : Input :=
  { i with
    tally := { i.tally with
      peakLeft := max i.tally.peakLeft (magnitude left)
      peakRight := max i.tally.peakRight (magnitude right) }
    window := i.window.reportQuiet (isQuiet i.limits left right) }

/-- Report that the buffer ran empty. -/
def reportUnderrun (i : Input) (now : Instant) : Input :=
  { i with
    tally := { i.tally with underruns := i.tally.underruns + 1 }
    window := i.window.reportGlitch now }

/-- Report that the buffer ran over. -/
def reportOverrun (i : Input) (now : Instant) : Input :=
  { i with
    tally := { i.tally with overruns := i.tally.overruns + 1 }
    window := i.window.reportGlitch now }

/-- Show the values and clear the tally. -/
def renderValues (i : Input) : Values × Input := (i.tally.values, { i with tally := {} })

/-- Classify the input and remember its state. -/
def observe (i : Input) (now : Instant) : InputState × Input :=
  let (state, window) := i.window.classify i.limits now
  (state, { i with window := window, lastState := state })

/-- Classify the input and clear the tally. -/
def renderState (i : Input) (now : Instant) : InputState × Input :=
  { i with tally := {} }.observe now

end Input

end MuxControl
