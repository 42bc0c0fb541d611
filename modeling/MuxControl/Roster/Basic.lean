/-
MuxControl.Roster.Basic — the inputs of the multiplexer and the names
under which some of them are listed.

Every input ever created has a number. An entry binds a name to the
number of an input and does not keep that input alive: an input lives
as long as somebody holds it. Once nobody does it is dead, and what it
does last, `retire`, takes its own entry away if it still has one. In
between, its entry is stale: it shows nothing, any other input may take
its name, and the next listing prunes it.
-/
import MuxControl.Keyed
import MuxControl.Roster.Input
import MuxControl.Service.Event

namespace MuxControl

/-- The number of an input. -/
abbrev InputId := Nat

/-- An input with the number of its holders, and whether it has done
what a dead input does last. -/
structure Slot where
  input : Input
  holders : Nat
  retired : Bool
deriving DecidableEq, Repr, Inhabited

/-- An input is alive while somebody holds it. -/
def Slot.alive (s : Slot) : Bool := 0 < s.holders

/-- All inputs by number, the entries by name, and the last count of
entries that was measured. -/
structure Roster where
  limits : Thresholds
  slots : List Slot := []
  entries : List (String × InputId) := []
  gauge : Option Nat := none
deriving DecidableEq, Repr, Inhabited

/-- A name that is taken by an input that is alive. -/
inductive RosterError where
  | duplicate (name : String)
deriving DecidableEq, Repr, Inhabited

/-- The wording of a roster error. -/
def RosterError.message : RosterError → String
  | .duplicate name => s!"input '{name}' is already registered"

/-- What the log says about a roster error. -/
def RosterError.events : RosterError → List Event
  | .duplicate name => [.doubleRegistration name]

namespace Roster

/-- The input with a number, if there is one. -/
def input? (r : Roster) (n : InputId) : Option Input := r.slots[n]?.map Slot.input

/-- Whether the input with a number is alive. -/
def alive (r : Roster) (n : InputId) : Bool := r.slots[n]?.any Slot.alive

/-- Change the input with a number. -/
def change (r : Roster) (n : InputId) (f : Input → Input) : Roster :=
  { r with slots := r.slots.modify n fun s => { s with input := f s.input } }

/-- Measure the number of entries. -/
def measure (r : Roster) : Roster := { r with gauge := some r.entries.length }

/-- A new input with one holder, not listed. -/
def create (r : Roster) (name : String) (now : Instant) : InputId × Roster :=
  (r.slots.length, { r with slots := r.slots ++ [⟨.create name r.limits now, 1, false⟩] })

/-- The input that is alive and listed under a name. -/
def exposed? (r : Roster) (name : String) : Option InputId :=
  (Keyed.get? name r.entries).filter r.alive

/-- List an input under its name, unless another entry of that name
refers to an input that is alive. -/
def register (r : Roster) (n : InputId) : Except RosterError Unit × Roster :=
  match r.input? n with
  | none => (.ok (), r)
  | some input =>
    match r.exposed? input.name with
    | some _ => (.error (.duplicate input.name), r)
    | none => (.ok (), { r with entries := Keyed.put input.name n r.entries }.measure)

/-- Have an input list itself: it does so unless it is marked already,
and marks itself if it was listed. -/
def registerSelf (r : Roster) (n : InputId) : Bool × Roster :=
  match r.input? n with
  | none => (false, r)
  | some input =>
    if input.marked then (true, r)
    else
      let (result, r) := r.register n
      let listed := result.toOption.isSome
      (listed, r.change n fun i => { i with marked := listed })

/-- Create an input and have it list itself. -/
def enroll (r : Roster) (name : String) (now : Instant) : Bool × InputId × Roster :=
  let (n, r) := r.create name now
  let (listed, r) := r.registerSelf n
  (listed, n, r)

/-- Take away the entry of a name. -/
def unregister (r : Roster) (name : String) : Roster :=
  if Keyed.has name r.entries then { r with entries := Keyed.remove name r.entries }.measure
  else r

/-- Take away the entry of a name if it refers to a given input. -/
def unregisterInput (r : Roster) (name : String) (n : InputId) : Roster :=
  if Keyed.get? name r.entries = some n then
    { r with entries := Keyed.remove name r.entries }.measure
  else r

/-- One more holder of an input. -/
def hold (r : Roster) (n : InputId) : Roster :=
  { r with slots := r.slots.modify n fun s => { s with holders := s.holders + 1 } }

/-- One holder less. -/
def release (r : Roster) (n : InputId) : Roster :=
  { r with slots := r.slots.modify n fun s => { s with holders := s.holders - 1 } }

/-- What a dead input does last, once: if it is marked, take its own
entry away. -/
def retire (r : Roster) (n : InputId) : Roster :=
  match r.slots[n]? with
  | none => r
  | some slot =>
    if slot.alive || slot.retired then r
    else
      let r := { r with slots := r.slots.modify n fun s => { s with retired := true } }
      if slot.input.marked then r.unregisterInput slot.input.name n else r

/-- Let go of an input; the last one to do so ends it. -/
def drop (r : Roster) (n : InputId) : Roster := (r.release n).retire n

/-- The entries of inputs that are alive. -/
def liveEntries (r : Roster) : List (String × InputId) :=
  r.entries.filter fun (_, n) => r.alive n

/-- The roster without stale entries. -/
def prune (r : Roster) : Roster := { r with entries := r.liveEntries }

/-- Render each input that is alive and listed, by ascending name, and
prune the other entries. -/
def renderEach {α : Type} (render : Input → α × Input) (r : Roster) :
    List (String × α) × Roster :=
  let rendered := r.liveEntries.filterMap fun (name, n) =>
    (r.input? n).map fun input => (name, (render input).1)
  let changed := r.liveEntries.foldl (fun r (_, n) => r.change n fun i => (render i).2) r
  (rendered, changed.prune)

/-- The names of the inputs that are alive and listed. -/
def ids (r : Roster) : List String × Roster :=
  let (rendered, r) := r.renderEach fun i => ((), i)
  (Keyed.keys rendered, r)

/-- The listing of the names. -/
def renderConfig (r : Roster) : Json × Roster :=
  let (ids, r) := r.ids
  (.object [("config", .array (ids.map .string))], r)

/-- The listing of the values; it clears the tallies. -/
def renderValues (r : Roster) : Json × Roster :=
  let (values, r) := r.renderEach Input.renderValues
  (.object [("values", .object (values.map fun (name, v) => (name, v.toJson)))], r)

/-- The listing of the states; it clears the tallies. -/
def renderState (r : Roster) (now : Instant) : Json × Roster :=
  let (states, r) := r.renderEach (·.renderState now)
  (.object (states.map fun (name, s) => (name, s.toJson)), r)

/-- Whether a name is listed for an input that is alive. -/
def isRegistered (r : Roster) (name : String) : Bool := (r.exposed? name).isSome

/-- What the log says about a question for a name. -/
def checkEvents (name : String) (registered : Bool) : List Event :=
  if registered then [] else [.notRegistered name]

/-- What the log says about an input that tried to list itself. -/
def enrollEvents (name : String) (listed : Bool) : List Event :=
  if listed then [] else [.doubleRegistration name]

end Roster

end MuxControl
