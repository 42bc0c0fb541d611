/-
MuxControl.Proofs.HealthHistory — the state of an input, read off the
history of its reports and queries.

A history lists what happened to an input since its creation, each entry
with the instant it is stamped with; the latest entry comes first. The
instants may come in any order.

What a classification depends on is read off a history without any
counters: the latest fill level and when the buffer was last filled, the
latest glitch, the glitches since a classification last forgave them, and
the run of quiet reports. `window_reached` says that the window of the
input holds just that, each count up to the greatest one, and
`classified_by_history` that every classification is the one read off.
-/
import MuxControl.Roster.Input

namespace MuxControl

/-! ## Histories -/

/-- What a producer reports. -/
inductive Report where
  | level (level : Nat)
  | peaks (left right : Int)
  | underrun
  | overrun
deriving DecidableEq, Repr, Inhabited

/-- What is asked of an input: its state, its state and a cleared tally,
or its values. -/
inductive HealthQuery where
  | observe
  | state
  | values
deriving DecidableEq, Repr, Inhabited

/-- An entry of a history. -/
inductive HealthEntry where
  | report (report : Report)
  | query (query : HealthQuery)
deriving DecidableEq, Repr, Inhabited

/-- What happened to an input; the latest entry is the first one. -/
abbrev HealthHistory := List (Instant × HealthEntry)

namespace Input

/-- Take a report. -/
def take (i : Input) (now : Instant) : Report → Input
  | .level level => i.reportLevel now level
  | .peaks left right => i.reportPeaks left right
  | .underrun => i.reportUnderrun now
  | .overrun => i.reportOverrun now

/-- Answer a query: the state, if the query is for it. -/
def answer (i : Input) (now : Instant) : HealthQuery → Option InputState × Input
  | .observe => (i.observe now).map some id
  | .state => (i.renderState now).map some id
  | .values => (none, i.renderValues.2)

/-- An entry happens. -/
def perform (i : Input) (now : Instant) : HealthEntry → Option InputState × Input
  | .report report => (none, i.take now report)
  | .query query => i.answer now query

/-- What comes of an input over a history. -/
def reached (initial : Input) : HealthHistory → Input
  | [] => initial
  | (now, entry) :: earlier => ((reached initial earlier).perform now entry).2

end Input

/-! ## What is read off a history -/

namespace HealthEntry

/-- The fill level that is reported. -/
@[simp] def level? : HealthEntry → Option Nat
  | .report (.level level) => some level
  | _ => none

/-- Whether a filled buffer is reported. -/
@[simp] def isFilled : HealthEntry → Bool
  | .report (.level level) => 0 < level
  | _ => false

/-- Whether an underrun or an overrun is reported. -/
@[simp] def isGlitch : HealthEntry → Bool
  | .report .underrun | .report .overrun => true
  | _ => false

/-- Whether peaks are reported, and whether these are quiet. -/
@[simp] def quiet? (limits : Thresholds) : HealthEntry → Option Bool
  | .report (.peaks left right) => some (Input.isQuiet limits left right)
  | _ => none

/-- Whether the input is classified. -/
@[simp] def classifies : HealthEntry → Bool
  | .query .observe | .query .state => true
  | _ => false

end HealthEntry

namespace HealthHistory

/-- The instant of the latest entry of a kind, or else that of the
creation. -/
def latest (kind : HealthEntry → Bool) (created : Instant) (history : HealthHistory) : Instant :=
  (history.find? fun entry => kind entry.2).elim created Prod.fst

/-- The instant of the latest glitch. -/
def lastGlitch (created : Instant) (history : HealthHistory) : Instant :=
  history.latest HealthEntry.isGlitch created

/-- The instant at which the buffer was last filled. -/
def lastFilled (created : Instant) (history : HealthHistory) : Instant :=
  history.latest HealthEntry.isFilled created

/-- Whether the latest fill level is 0, or none was reported. -/
def isEmpty (history : HealthHistory) : Bool :=
  (history.findSome? fun entry => entry.2.level?).all (· = 0)

/-- Whether a classification at an instant forgives: it lies far enough
behind the latest glitch. An instant before the glitch counts as no time
at all. -/
def forgives (limits : Thresholds) (created : Instant) (history : HealthHistory)
    (now : Instant) : Bool :=
  seconds limits.counterReset < now - history.lastGlitch created

/-- The glitches since the latest classification that forgave. -/
def glitches (limits : Thresholds) (created : Instant) : HealthHistory → Nat
  | [] => 0
  | (now, entry) :: earlier =>
    if entry.isGlitch then glitches limits created earlier + 1
    else if entry.classifies && forgives limits created earlier now then 0
    else glitches limits created earlier

/-- The quiet reports of peaks since the latest one that was not quiet. -/
def quietReports (limits : Thresholds) (history : HealthHistory) : Nat :=
  ((history.filterMap fun entry => entry.2.quiet? limits).takeWhile id).length

/-- The state that a classification at an instant finds; it may itself
forgive. -/
def stateAt (limits : Thresholds) (created : Instant) (history : HealthHistory)
    (now : Instant) : InputState :=
  let unforgiven := if history.forgives limits created now then 0
    else min maxCount (history.glitches limits created)
  if history.isEmpty && seconds limits.noDataTimeout < now - history.lastFilled created then
    .noData
  else if limits.unstable ≤ unforgiven then .unstable
  else if limits.silenceCount < min maxCount (history.quietReports limits) then .silence
  else .streaming

/-! ## The window holds what is read off -/

/-- The window as the history has it. -/
def window (limits : Thresholds) (created : Instant) (history : HealthHistory) : Window where
  glitches := min maxCount (history.glitches limits created)
  quietReports := min maxCount (history.quietReports limits)
  lastGlitch := history.lastGlitch created
  lastFilled := history.lastFilled created
  bufferEmpty := history.isEmpty

section Steps

variable (limits : Thresholds) (created now : Instant) (entry : HealthEntry)
  (history : HealthHistory)

theorem latest_cons (kind : HealthEntry → Bool) :
    latest kind created ((now, entry) :: history) =
      if kind entry then now else history.latest kind created := by
  unfold latest
  rw [List.find?_cons]
  cases kind entry <;> rfl

@[simp] theorem lastGlitch_cons :
    lastGlitch created ((now, entry) :: history) =
      if entry.isGlitch then now else history.lastGlitch created :=
  latest_cons created now entry history _

@[simp] theorem lastFilled_cons :
    lastFilled created ((now, entry) :: history) =
      if entry.isFilled then now else history.lastFilled created :=
  latest_cons created now entry history _

@[simp] theorem isEmpty_cons :
    isEmpty ((now, entry) :: history) = entry.level?.elim history.isEmpty (· = 0) := by
  unfold isEmpty
  rw [List.findSome?_cons]
  cases entry.level? <;> rfl

@[simp] theorem glitches_cons :
    glitches limits created ((now, entry) :: history) =
      if entry.isGlitch then history.glitches limits created + 1
      else if entry.classifies && history.forgives limits created now then 0
      else history.glitches limits created := rfl

@[simp] theorem quietReports_cons :
    quietReports limits ((now, entry) :: history) =
      (entry.quiet? limits).elim (history.quietReports limits) fun quiet =>
        if quiet then history.quietReports limits + 1 else 0 := by
  unfold quietReports
  rw [List.filterMap_cons]
  cases entry.quiet? limits with
  | none => rfl
  | some quiet => cases quiet <;> simp

/-- Counting up stays at the greatest count. -/
theorem countUp_min (n : Nat) : countUp (min maxCount n) = min maxCount (n + 1) := by
  unfold countUp
  omega

theorem window_level (level : Nat) :
    window limits created ((now, .report (.level level)) :: history) =
      (history.window limits created).reportLevel now level := by
  rcases Nat.eq_zero_or_pos level with rfl | hlevel
  · simp [window, Window.reportLevel]
  · have hne : level ≠ 0 := by omega
    simp [window, Window.reportLevel, hlevel, hne]

theorem window_peaks (left right : Int) :
    window limits created ((now, .report (.peaks left right)) :: history) =
      (history.window limits created).reportQuiet (Input.isQuiet limits left right) := by
  cases hquiet : Input.isQuiet limits left right with
  | false => simp [window, Window.reportQuiet, hquiet]
  | true => simp [window, Window.reportQuiet, hquiet, countUp_min]

theorem window_underrun :
    window limits created ((now, .report .underrun) :: history) =
      (history.window limits created).reportGlitch now := by
  simp [window, Window.reportGlitch, countUp_min]

theorem window_overrun :
    window limits created ((now, .report .overrun) :: history) =
      (history.window limits created).reportGlitch now := by
  simp [window, Window.reportGlitch, countUp_min]

/-- The window forgives when the history does. -/
theorem forgives_window :
    (history.window limits created).forgives limits now = history.forgives limits created now :=
  rfl

/-- A query changes the window only by what a classification forgives. -/
theorem window_query (query : HealthQuery) :
    window limits created ((now, .query query) :: history) =
      if HealthEntry.classifies (.query query) then
        (history.window limits created).settle limits now
      else history.window limits created := by
  unfold Window.settle
  rw [forgives_window]
  cases hforgives : history.forgives limits created now <;>
    cases query <;> simp [window, hforgives]

/-- What is read off is what the settled window shows. -/
theorem stateAt_settle :
    ((history.window limits created).settle limits now).stateAt limits now =
      history.stateAt limits created now := by
  unfold Window.settle stateAt
  rw [forgives_window]
  cases hforgives : history.forgives limits created now <;> simp [Window.stateAt, window]

end Steps

end HealthHistory

namespace Input

open HealthHistory

variable (name : String) (limits : Thresholds) (created : Instant)

theorem limits_perform (i : Input) (now : Instant) (entry : HealthEntry) :
    (i.perform now entry).2.limits = i.limits := by
  cases entry with
  | report report => cases report <;> rfl
  | query query => cases query <;> rfl

theorem limits_reached (history : HealthHistory) :
    (reached (create name limits created) history).limits = limits := by
  induction history with
  | nil => rfl
  | cons entry earlier ih => rw [reached, limits_perform, ih]

/-- What an entry makes of the window. -/
theorem window_perform {i : Input} {history : HealthHistory}
    (hwindow : i.window = history.window i.limits created) (now : Instant) (entry : HealthEntry) :
    (i.perform now entry).2.window =
      HealthHistory.window i.limits created ((now, entry) :: history) := by
  cases entry with
  | report report =>
    cases report with
    | level level => rw [window_level, ← hwindow]; rfl
    | peaks left right => rw [window_peaks, ← hwindow]; rfl
    | underrun => rw [window_underrun, ← hwindow]; rfl
    | overrun => rw [window_overrun, ← hwindow]; rfl
  | query query =>
    rw [window_query, ← hwindow]
    cases query <;> rfl

/-- After every history the window holds what is read off it. -/
theorem window_reached (history : HealthHistory) :
    (reached (create name limits created) history).window = history.window limits created := by
  induction history with
  | nil => rfl
  | cons entry earlier ih =>
    obtain ⟨now, entry⟩ := entry
    have hlimits := limits_reached name limits created earlier
    have hstep := window_perform created (by rw [hlimits]; exact ih) now entry
    rw [hlimits] at hstep
    exact hstep

/-- **Every classification is read off the history.** A query for the
state is answered by the state that the reports and the earlier queries
give it at that instant; a query for the values answers no state. -/
theorem classified_by_history (history : HealthHistory) (now : Instant) (query : HealthQuery) :
    ((reached (create name limits created) history).answer now query).1 =
      if HealthEntry.classifies (.query query) then some (history.stateAt limits created now)
      else none := by
  -- The query settles the window before it reads it, so it forgives first.
  have hwindow := window_reached name limits created history
  have hlimits := limits_reached name limits created history
  have hobserve : ((reached (create name limits created) history).observe now).1 =
      history.stateAt limits created now := by
    rw [← stateAt_settle, ← hwindow]
    simp only [observe, Window.classify, hlimits]
  cases query with
  | observe => exact congrArg some hobserve
  | state => exact congrArg some hobserve
  | values => rfl

/-- Three glitches make an input unstable until they are forgiven, half an
hour after the last of them. -/
example :
    let history : HealthHistory :=
      [(9, .report .underrun), (8, .report .overrun), (7, .report (.level 4)),
        (6, .report .underrun)]
    history.stateAt {} 0 1800009 = .unstable ∧ history.stateAt {} 0 1800010 = .streaming := by
  decide

end Input

end MuxControl
