/-
MuxControl.Health.Window — the health of an input, as counters and
instants that a classification reads.

An input without data for too long has `noData`; one with too many
glitches is `unstable`; one that has been quiet for too many reports is
`silence`; any other is `streaming`. The first of these that applies is
the state. A classification forgives the glitches when the last one
lies far enough back, and changes nothing else: that is what the lemmas
on `settle` say, field by field.
-/
import MuxControl.Number.Word

namespace MuxControl

/-- The state of an input. -/
inductive InputState where
  | unknown
  | noData
  | unstable
  | silence
  | streaming
deriving DecidableEq, Repr, Inhabited

namespace InputState

/-- The word for a state. -/
def name : InputState → String
  | .unknown => "Unknown"
  | .noData => "NoData"
  | .unstable => "Unstable"
  | .silence => "Silent"
  | .streaming => "Streaming"

/-- The number of a state. -/
def code : InputState → Nat
  | .unknown => 0
  | .noData => 1
  | .unstable => 2
  | .silence => 3
  | .streaming => 4

/-- The state with a number; numbers without one mean `unknown`. -/
def ofCode : Nat → InputState
  | 1 => .noData
  | 2 => .unstable
  | 3 => .silence
  | 4 => .streaming
  | _ => .unknown

end InputState

/-- An instant, in milliseconds from an arbitrary start. -/
abbrev Instant := Nat

/-- A number of seconds, in the unit of instants. -/
def seconds (n : Nat) : Nat := n * 1000

/-- The limits of a classification; the two times are in seconds. -/
structure Thresholds where
  counterReset : Nat := 1800
  noDataTimeout : Nat := 30
  unstable : Nat := 3
  silenceCount : Nat := 100
  silenceLevel : Int := -50
deriving DecidableEq, Repr, Inhabited

/-- The greatest count: counters stay there. -/
def maxCount : Nat := Word.max32

/-- One more, up to the greatest count. -/
def countUp (n : Nat) : Nat := min (n + 1) maxCount

/-- What is known of the health of an input. -/
structure Window where
  glitches : Nat
  quietReports : Nat
  lastGlitch : Instant
  lastFilled : Instant
  bufferEmpty : Bool
deriving DecidableEq, Repr, Inhabited

namespace Window

/-- The window of an input that has reported nothing yet. -/
def start (now : Instant) : Window := ⟨0, 0, now, now, true⟩

/-- A report of the fill level of the buffer. -/
def reportLevel (w : Window) (now : Instant) (level : Nat) : Window :=
  if 0 < level then { w with bufferEmpty := false, lastFilled := now }
  else { w with bufferEmpty := true }

/-- A report of peaks that was quiet or not. -/
def reportQuiet (w : Window) (quiet : Bool) : Window :=
  { w with quietReports := if quiet then countUp w.quietReports else 0 }

/-- A report of an underrun or an overrun. -/
def reportGlitch (w : Window) (now : Instant) : Window :=
  { w with glitches := countUp w.glitches, lastGlitch := now }

/-- Whether the glitches are forgiven at an instant. An instant before
the last glitch counts as no time at all. -/
def forgives (w : Window) (limits : Thresholds) (now : Instant) : Bool :=
  seconds limits.counterReset < now - w.lastGlitch

/-- The window after a classification at an instant. -/
def settle (w : Window) (limits : Thresholds) (now : Instant) : Window :=
  if w.forgives limits now then { w with glitches := 0 } else w

/-- The state that a settled window shows at an instant. -/
def stateAt (w : Window) (limits : Thresholds) (now : Instant) : InputState :=
  if w.bufferEmpty && seconds limits.noDataTimeout < now - w.lastFilled then .noData
  else if limits.unstable ≤ w.glitches then .unstable
  else if limits.silenceCount < w.quietReports then .silence
  else .streaming

/-- Classify at an instant: the state, and the window after it. -/
def classify (w : Window) (limits : Thresholds) (now : Instant) : InputState × Window :=
  let settled := w.settle limits now
  (settled.stateAt limits now, settled)

/-! ## What a classification leaves alone -/

section Settle

variable (w : Window) (limits : Thresholds) (now : Instant)

@[simp] theorem quietReports_settle : (w.settle limits now).quietReports = w.quietReports := by
  unfold settle; split <;> rfl

@[simp] theorem lastGlitch_settle : (w.settle limits now).lastGlitch = w.lastGlitch := by
  unfold settle; split <;> rfl

@[simp] theorem lastFilled_settle : (w.settle limits now).lastFilled = w.lastFilled := by
  unfold settle; split <;> rfl

@[simp] theorem bufferEmpty_settle : (w.settle limits now).bufferEmpty = w.bufferEmpty := by
  unfold settle; split <;> rfl

theorem glitches_settle :
    (w.settle limits now).glitches = if w.forgives limits now then 0 else w.glitches := by
  unfold settle; split <;> rfl

/-- Forgiving twice at one instant is forgiving once. -/
@[simp] theorem settle_settle : (w.settle limits now).settle limits now = w.settle limits now := by
  unfold settle forgives
  split <;> simp_all

end Settle

end Window

end MuxControl
