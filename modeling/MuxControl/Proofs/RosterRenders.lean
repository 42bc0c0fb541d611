/-
MuxControl.Proofs.RosterRenders — what a listing shows and what it does
to the inputs.

A listing goes through the entries one by one and changes the roster as
it goes. `rendered_renderEach` says what comes of it without going
through anything: each input that is alive and listed is rendered, as
often as it is listed; rendering it again at the same instant changes
nothing (`clears_clears`), so it counts once. Every other input is left
alone. `Listing` names the three listings that clients ask for, and
`render_spec` says of all of them what is shown and what is changed.
-/
import MuxControl.Proofs.RosterEffects
import Mathlib.Logic.Function.Iterate

namespace MuxControl

namespace Roster

variable {r r' : Roster} {f : Input → Input}

/-- The inputs that are alive and listed, each under its name. -/
def shown (r : Roster) : List (String × Input) :=
  r.liveEntries.filterMap fun (name, n) => (r.input? n).map fun input => (name, input)

/-- Whether an input is alive and listed. -/
def IsShown (r : Roster) (n : InputId) : Prop := n ∈ r.liveEntries.map Prod.snd

instance (r : Roster) (n : InputId) : Decidable (r.IsShown n) :=
  inferInstanceAs (Decidable (n ∈ r.liveEntries.map Prod.snd))

/-- Each input that is shown is changed, every other one is left as it
was, and the entries that show nothing are gone. -/
structure Rendered (r : Roster) (f : Input → Input) (r' : Roster) : Prop where
  slots : ∀ n, r'.slots[n]? = r.slots[n]?.map fun slot =>
    if r.IsShown n then { slot with input := f slot.input } else slot
  entries : r'.entries = r.liveEntries
  limits : r'.limits = r.limits
  gauge : r'.gauge = r.gauge

/-! ## One render after the other -/

/-- An input is changed as often as its number comes up. -/
theorem slots_foldl_change_iterate (f : Input → Input) (entries : List (String × InputId))
    (r : Roster) (m : InputId) :
    (entries.foldl (fun r (_, n) => r.change n f) r).slots[m]? = r.slots[m]?.map fun slot =>
      { slot with input := f^[(entries.map Prod.snd).count m] slot.input } := by
  induction entries generalizing r with
  | nil => simp
  | cons entry rest ih =>
    obtain ⟨name, n⟩ := entry
    rw [List.foldl_cons, ih]
    by_cases heq : n = m
    · subst heq
      simp [change, Function.comp_def]
    · simp [change, heq]

theorem slots_foldl_change (hf : ∀ i, f (f i) = f i) (entries : List (String × InputId))
    (r : Roster) (m : InputId) :
    (entries.foldl (fun r (_, n) => r.change n f) r).slots[m]? = r.slots[m]?.map fun slot =>
      if m ∈ entries.map Prod.snd then { slot with input := f slot.input } else slot := by
  have hiterate : ∀ k i, f^[k + 1] i = f i := by
    intro k i
    induction k with
    | zero => rfl
    | succ k ih => rw [Function.iterate_succ_apply', ih, hf]
  rw [slots_foldl_change_iterate]
  congr 1
  funext slot
  split
  · next hmem =>
    obtain ⟨k, hk⟩ := Nat.exists_eq_add_of_lt (List.count_pos_iff.mpr hmem)
    rw [hk, Nat.zero_add, hiterate]
  · next hnot =>
    rw [List.count_eq_zero.mpr hnot]
    rfl

theorem aside_foldl_change (entries : List (String × InputId)) (r : Roster) :
    (entries.foldl (fun r (_, n) => r.change n f) r).limits = r.limits ∧
      (entries.foldl (fun r (_, n) => r.change n f) r).gauge = r.gauge := by
  induction entries generalizing r with
  | nil => exact ⟨rfl, rfl⟩
  | cons entry rest ih => exact ih _

variable {α : Type} (render : Input → α × Input)

/-- **What a render does.** It changes each input that is shown once, as
long as rendering it again would change nothing more. -/
theorem rendered_renderEach (hagain : ∀ i, (render (render i).2).2 = (render i).2) (r : Roster) :
    r.Rendered (fun i => (render i).2) (r.renderEach render).2 where
  slots n := slots_foldl_change (f := fun i => (render i).2) hagain r.liveEntries r n
  entries := entries_renderEach render r
  limits := (aside_foldl_change r.liveEntries r).1
  gauge := (aside_foldl_change r.liveEntries r).2

/-- **What a render shows**: each input that is shown, as it was. -/
theorem fst_renderEach (r : Roster) :
    (r.renderEach render).1 = r.shown.map fun (name, i) => (name, (render i).1) := by
  unfold shown
  rw [List.map_filterMap]
  show r.liveEntries.filterMap _ = _
  congr 1
  funext entry
  rw [Option.map_map]
  rfl

end Roster

/-! ## The listings -/

/-- A listing that clients ask for. -/
inductive Listing where
  | names
  | values
  | states
deriving DecidableEq, Repr, Inhabited

namespace Listing

/-- What a listing shows of the inputs. -/
def json (now : Instant) (inputs : List (String × Input)) : Listing → Json
  | .names => .object [("config", .array (inputs.map fun (name, _) => .string name))]
  | .values =>
    .object [("values", .object (inputs.map fun (name, i) => (name, i.tally.values.toJson)))]
  | .states => .object (inputs.map fun (name, i) =>
      (name, (i.window.classify i.limits now).1.toJson))

/-- What a listing makes of an input that it shows: the values and the
states clear its tally, and the states classify it as well. -/
def clears (now : Instant) : Listing → Input → Input
  | .names => id
  | .values => fun i => { i with tally := {} }
  | .states => fun i =>
    let (state, window) := i.window.classify i.limits now
    { i with tally := {}, window := window, lastState := state }

/-- Render a listing. -/
def render (now : Instant) (r : Roster) : Listing → Json × Roster
  | .names => r.renderConfig
  | .values => r.renderValues
  | .states => r.renderState now

/-- Clearing twice at one instant is clearing once. -/
theorem clears_clears (now : Instant) (listing : Listing) (i : Input) :
    listing.clears now (listing.clears now i) = listing.clears now i := by
  cases listing with
  | names => rfl
  | values => rfl
  | states => simp [clears, Window.classify]

/-- **What a listing shows and does.** -/
theorem render_spec (now : Instant) (r : Roster) (listing : Listing) :
    (listing.render now r).1 = listing.json now r.shown ∧
      r.Rendered (listing.clears now) (listing.render now r).2 := by
  cases listing with
  | names =>
    refine ⟨?_, Roster.rendered_renderEach (fun i => ((), i)) (fun _ => rfl) r⟩
    simp only [render, Roster.renderConfig, Roster.ids, Roster.fst_renderEach, Keyed.keys, json,
      List.map_map]
    rfl
  | values =>
    refine ⟨?_, Roster.rendered_renderEach Input.renderValues (fun _ => rfl) r⟩
    simp only [render, Roster.renderValues, Roster.fst_renderEach, json, List.map_map]
    rfl
  | states =>
    refine ⟨?_, Roster.rendered_renderEach (·.renderState now) (clears_clears now .states) r⟩
    simp only [render, Roster.renderState, Roster.fst_renderEach, json, List.map_map]
    rfl

end Listing

end MuxControl
