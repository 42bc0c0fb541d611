/-
MuxControl.Proofs.StopListeners — what the listeners of a stop signal are
told, read off what has happened.

The signal is a channel that keeps the last value sent over it, and each
listener knows how many of the values it has seen. A new listener has
seen them all, a copy as many as the one it was made from. A listener that
waits looks at the last value first, seen or not; only then does it wait
for one that it has not seen, or for the end of the owner. So what it has
seen does not matter (`wakes_eq_isOver`): the signal is a level.

`listeners_told` says what the two questions of a listener answer after
every history. They part when the owner goes away without a word: whoever
waits goes on, and whoever asks is told that nobody has stopped anything
(`orphaned_listener_unaware`).
-/
import Mathlib.Logic.Function.Basic
import MuxControl.Service.Signal

namespace MuxControl

/-! ## Waiting -/

namespace Signal

/-- Whether a listener that has seen `seen` of the values sent goes on at
once when it waits for the stop. -/
def wakes (s : Signal) (sent seen : Nat) : Bool :=
  if s.isStopped then true
  else if seen < sent then s.wakes sent sent
  else !s.owned
termination_by sent - seen

/-- A listener that has seen everything waits for the owner alone. -/
theorem wakes_self (s : Signal) (sent : Nat) : s.wakes sent sent = s.isOver := by
  rw [wakes]
  cases htriggered : s.triggered <;> simp [isStopped, isOver, htriggered]

/-- What a listener has seen does not matter. -/
theorem wakes_eq_isOver (s : Signal) (sent seen : Nat) : s.wakes sent seen = s.isOver := by
  rw [wakes, wakes_self]
  cases htriggered : s.triggered <;> simp [isStopped, isOver, htriggered]

end Signal

/-! ## Listeners -/

/-- A stop signal with its listeners: how many values were sent over it,
and how many of them each listener that is held has seen. -/
structure Audience (ι : Type) where
  signal : Signal := {}
  sent : Nat := 0
  seen : ι → Option Nat := fun _ => none

namespace Audience

/-- What may happen to a signal and its listeners. -/
inductive Act (ι : Type) where
  | subscribe (listener : ι)
  | copy (listener as : ι)
  | drop (listener : ι)
  | wait (listener : ι)
  | trigger
  | disown
deriving DecidableEq, Repr

variable {ι : Type}

/-- Whether a listener is held. -/
def Holds (c : Audience ι) (listener : ι) : Prop := (c.seen listener).isSome

instance (c : Audience ι) (listener : ι) : Decidable (c.Holds listener) :=
  inferInstanceAs (Decidable ((c.seen listener).isSome = true))

/-- What a listener is told that asks whether the signal was triggered. -/
def told (c : Audience ι) (listener : ι) : Option Bool :=
  (c.seen listener).map fun _ => c.signal.isStopped

/-- Whether a listener that waits for the stop goes on at once. -/
def goesOn (c : Audience ι) (listener : ι) : Option Bool :=
  (c.seen listener).map fun seen => c.signal.wakes c.sent seen

section Histories

variable [DecidableEq ι]

/-- From now on a listener has seen that many values, or is not held. -/
def knows (c : Audience ι) (listener : ι) (seen : Option Nat) : Audience ι :=
  { c with seen := Function.update c.seen listener seen }

/-- What comes of an act. Without the owner nobody subscribes and nobody
triggers; what is not held is neither copied nor waits. -/
def perform (c : Audience ι) : Act ι → Audience ι
  | .subscribe listener => if c.signal.owned then c.knows listener (some c.sent) else c
  | .copy listener as => if c.Holds listener then c.knows as (c.seen listener) else c
  | .drop listener => c.knows listener none
  | .wait listener => if c.Holds listener then c.knows listener (some c.sent) else c
  | .trigger =>
    if c.signal.owned then { c with signal := c.signal.trigger, sent := c.sent + 1 } else c
  | .disown => { c with signal := c.signal.disown }

/-- What comes of a history; its latest act is the first one listed. -/
def reached : List (Act ι) → Audience ι
  | [] => {}
  | act :: earlier => (reached earlier).perform act

end Histories

/-! ## The signal, read off the history -/

/-- Whether the owner has gone away. -/
def Orphaned (history : List (Act ι)) : Prop := .disown ∈ history

/-- Whether the owner has triggered the signal; it cannot once it is gone. -/
def Triggered (history : List (Act ι)) : Prop :=
  ∃ later earlier, history = later ++ .trigger :: earlier ∧ ¬ Orphaned earlier

variable {history : List (Act ι)}

theorem orphaned_cons (act : Act ι) :
    Orphaned (act :: history) ↔ act = .disown ∨ Orphaned history := by
  simp [Orphaned, eq_comm]

theorem not_triggered_nil : ¬ Triggered ([] : List (Act ι)) := by
  rintro ⟨later, earlier, hsplit, _⟩
  simp at hsplit

theorem triggered_cons (act : Act ι) :
    Triggered (act :: history) ↔
      act = .trigger ∧ ¬ Orphaned history ∨ Triggered history := by
  constructor
  · rintro ⟨later, earlier, hsplit, howned⟩
    cases later with
    | nil =>
      obtain ⟨rfl, rfl⟩ := List.cons.inj hsplit
      exact .inl ⟨rfl, howned⟩
    | cons first later =>
      obtain ⟨rfl, rfl⟩ := List.cons.inj hsplit
      exact .inr ⟨later, earlier, rfl, howned⟩
  · rintro (⟨rfl, howned⟩ | ⟨later, earlier, rfl, howned⟩)
    · exact ⟨[], history, rfl, howned⟩
    · exact ⟨act :: later, earlier, rfl, howned⟩

/-- What was once the case in a history stays the case. -/
theorem Orphaned.later (horphaned : Orphaned history) (later : List (Act ι)) :
    Orphaned (later ++ history) :=
  List.mem_append_right later horphaned

theorem Triggered.later (htriggered : Triggered history) (later : List (Act ι)) :
    Triggered (later ++ history) := by
  obtain ⟨behind, earlier, rfl, howned⟩ := htriggered
  exact ⟨later ++ behind, earlier, by simp, howned⟩

variable [DecidableEq ι]

@[simp] theorem signal_knows (c : Audience ι) (listener : ι) (seen : Option Nat) :
    (c.knows listener seen).signal = c.signal := rfl

/-- The owner alone changes the signal. -/
theorem signal_perform (c : Audience ι) (act : Act ι) :
    (c.perform act).signal =
      match act with
      | .trigger => if c.signal.owned then c.signal.trigger else c.signal
      | .disown => c.signal.disown
      | _ => c.signal := by
  cases act with
  | drop listener => rfl
  | disown => rfl
  | _ =>
    simp only [perform]
    split <;> rfl

theorem owned_reached (history : List (Act ι)) :
    (reached history).signal.owned = true ↔ ¬ Orphaned history := by
  induction history with
  | nil => simp [reached, Orphaned]
  | cons act earlier ih =>
    rw [reached, signal_perform, orphaned_cons]
    cases act with
    | trigger =>
      simp only [reduceCtorEq, false_or, ← ih]
      split <;> rfl
    | disown => simp [Signal.disown]
    | _ => simpa using ih

theorem triggered_reached (history : List (Act ι)) :
    (reached history).signal.isStopped = true ↔ Triggered history := by
  induction history with
  | nil => simp [reached, Signal.isStopped, not_triggered_nil]
  | cons act earlier ih =>
    rw [reached, signal_perform, triggered_cons]
    cases act with
    | trigger =>
      rw [← owned_reached, ← ih]
      cases howned : (reached earlier).signal.owned <;>
        simp [Signal.trigger, Signal.isStopped]
    | disown => simpa [Signal.disown, Signal.isStopped] using ih
    | _ => simpa using ih

theorem over_reached (history : List (Act ι)) :
    (reached history).signal.isOver = true ↔ Triggered history ∨ Orphaned history := by
  have howned := not_congr (owned_reached history)
  rw [not_not, Bool.not_eq_true] at howned
  rw [← triggered_reached, ← howned]
  simp [Signal.isOver, Signal.isStopped]

/-! ## What listeners are told -/

variable {listener : ι}

theorem told_iff (hheld : (reached history).Holds listener) :
    (reached history).told listener = some true ↔ Triggered history := by
  obtain ⟨seen, hseen⟩ := Option.isSome_iff_exists.mp hheld
  simp [told, hseen, triggered_reached]

theorem goesOn_iff (hheld : (reached history).Holds listener) :
    (reached history).goesOn listener = some true ↔ Triggered history ∨ Orphaned history := by
  obtain ⟨seen, hseen⟩ := Option.isSome_iff_exists.mp hheld
  simp [goesOn, hseen, Signal.wakes_eq_isOver, over_reached]

/-- **What the listeners of a stop signal are told.** Whenever a listener
came to be held, by a subscription or as a copy, and whatever it has seen:
asked, the signal says that it was triggered just if its owner has
triggered it; waiting, the listener goes on at once just if that is so or
the owner is gone. Both stay so for every listener held later. The two
agree unless the owner went away without triggering. -/
theorem listeners_told (hheld : (reached history).Holds listener) :
    ((reached history).told listener = some true ↔ Triggered history) ∧
    ((reached history).goesOn listener = some true ↔ Triggered history ∨ Orphaned history) ∧
    ((reached history).told listener = (reached history).goesOn listener ↔
      (Orphaned history → Triggered history)) ∧
    ∀ later other, (reached (later ++ history)).Holds other →
      ((reached history).told listener = some true →
        (reached (later ++ history)).told other = some true) ∧
      ((reached history).goesOn listener = some true →
        (reached (later ++ history)).goesOn other = some true) := by
  refine ⟨told_iff hheld, goesOn_iff hheld, ?_, ?_⟩
  · have htold := told_iff hheld
    have hgoesOn := goesOn_iff hheld
    obtain ⟨seen, hseen⟩ := Option.isSome_iff_exists.mp hheld
    have heq : (reached history).told listener = (reached history).goesOn listener ↔
        ((reached history).told listener = some true ↔
          (reached history).goesOn listener = some true) := by
      simp only [told, goesOn, hseen, Option.map_some, Option.some.injEq]
      exact Bool.eq_iff_iff
    rw [heq, htold, hgoesOn]
    exact iff_comm.trans or_iff_left_iff_imp
  · intro later other hother
    rw [told_iff hheld, told_iff hother, goesOn_iff hheld, goesOn_iff hother]
    constructor
    · intro htriggered
      exact htriggered.later later
    · rintro (htriggered | horphaned)
      · exact .inl (htriggered.later later)
      · exact .inr (horphaned.later later)

/-- A copy of a listener that has already waited in vain, made after the
trigger and asked after the owner is gone. -/
theorem listeners_told_copy :
    let history : List (Act Nat) :=
      [.disown, .copy 1 2, .trigger, .wait 1, .subscribe 1]
    (reached history).Holds 2 ∧ (reached history).told 2 = some true ∧
      (reached history).goesOn 2 = some true := by
  intro history
  have hheld : (reached history).Holds 2 := by decide +kernel
  have htriggered : Triggered history := ⟨[.disown, .copy 1 2], [.wait 1, .subscribe 1], rfl,
    by simp [Orphaned]⟩
  obtain ⟨htold, hgoesOn, _⟩ := listeners_told hheld
  exact ⟨hheld, htold.mpr htriggered, hgoesOn.mpr (.inl htriggered)⟩

/-- A listener whose owner has gone away without triggering is told that
nothing was stopped, although it would not wait. -/
theorem orphaned_listener_unaware :
    ¬ ∀ (history : List (Act Nat)) (listener : Nat), (reached history).Holds listener →
        ((reached history).told listener = some true ↔
          (reached history).goesOn listener = some true) := by
  intro hall
  have hheld : (reached ([.disown, .subscribe 1] : List (Act Nat))).Holds 1 := by
    decide +kernel
  have hgoesOn := (goesOn_iff hheld).mpr (.inr (by simp [Orphaned]))
  have htold : (reached ([.disown, .subscribe 1] : List (Act Nat))).told 1 = some false := by
    decide +kernel
  have htrue := (hall [.disown, .subscribe 1] 1 hheld).mpr hgoesOn
  rw [htold] at htrue
  cases htrue

end Audience

end MuxControl
