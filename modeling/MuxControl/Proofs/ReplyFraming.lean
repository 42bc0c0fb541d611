/-
MuxControl.Proofs.ReplyFraming — the greeting and the listings are lines
that say what was rendered.

The greeting of a service and the three listings are each one line of
JSON: the newline byte stands at the end and nowhere else (`Framed`),
whatever the names hold, so the first newline of a stream always ends the
greeting. Reading a line back gives the value that was written
(`Json.parse_compact_line`), and readers for the listings give the names,
the values and the states that were shown (`replies_framed`). A listing
keeps the order of its names; the fields of the values are written in an
order of their own, in which they are not read back.
-/
import MuxControl.Proofs.PeakLevels
import MuxControl.Proofs.ReadBack
import MuxControl.Proofs.SessionErrand
import MuxControl.Proofs.TextLines

namespace MuxControl

open Wire

/-! ## Lines of JSON -/

/-- The newline byte stands at the end and nowhere else. -/
def Wire.Framed (bytes : Bytes) : Prop :=
  bytes.count newlineByte = 1 ∧ bytes.getLast? = some newlineByte

instance (bytes : Bytes) : Decidable (Framed bytes) := inferInstanceAs (Decidable (_ ∧ _))

theorem Json.framed_compact_line (v : Json) : Framed (encode (v.compact ++ "\n")) :=
  framed_encode_line (Json.newline_not_mem_compact v)

namespace Json

variable {α : Type} {inputs : List (String × α)}

/-- Of an object whose members are in order, each is read back on its own. -/
theorem readBack_object (hordered : Keyed.Ordered inputs) (f : α → Json) :
    (Json.object (inputs.map fun (name, a) => (name, f a))).readBack =
      .object (inputs.map fun (name, a) => (name, (f a).readBack)) := by
  have hreread : rereadMembers (inputs.map fun (name, a) => (name, f a)) =
      inputs.map fun (name, a) => (name, (f a).reread) := by
    rw [rereadMembers_eq_map, List.map_map]
    rfl
  have hsorted : Keyed.Ordered ([] ++ inputs.map fun (name, a) => (name, (f a).reread)) := by
    have hkeys : Keyed.keys (inputs.map fun (name, a) => (name, (f a).reread)) =
        Keyed.keys inputs := Keyed.keys_map (fun a => (f a).reread) inputs
    rw [List.nil_append, Keyed.Ordered, hkeys]
    exact hordered
  rw [readBack, reread, hreread, arranged, arrange_of_ordered [] hsorted, List.nil_append,
    List.map_map]
  rfl

theorem readBack_array_strings (names : List String) :
    (Json.array (names.map .string)).readBack = .array (names.map .string) := by
  rw [readBack, reread, rereadItems_eq_map, arranged, arrangedItems_eq_map, List.map_map,
    List.map_map]
  rfl

/-- The members of an object. -/
def members? : Json → Option (List (String × Json))
  | .object members => some members
  | _ => none

/-- The items of an array. -/
def items? : Json → Option (List Json)
  | .array items => some items
  | _ => none

/-- The text of a string. -/
def string? : Json → Option String
  | .string s => some s
  | _ => none

/-- An integer. -/
def int? : Json → Option Int
  | .int i => some i
  | _ => none

/-- An integer that is not negative. -/
def nat? (v : Json) : Option Nat := v.int?.bind Int.toNat?

end Json

/-! ## Readers for the listings -/

/-- The state with a name. -/
def InputState.ofName? : String → Option InputState
  | "Unknown" => some .unknown
  | "NoData" => some .noData
  | "Unstable" => some .unstable
  | "Silent" => some .silence
  | "Streaming" => some .streaming
  | _ => none

/-- The state that a JSON value stands for. -/
def InputState.ofJson? (v : Json) : Option InputState :=
  ((v.member? "state").bind Json.string?).bind InputState.ofName?

/-- The values that a JSON value stands for. -/
def Values.ofJson? (v : Json) : Option Values := do
  let fields ← v.member? "inputstat"
  return {
    minFill := ← (← fields.member? "min_fill").int?
    maxFill := ← (← fields.member? "max_fill").nat?
    peakLeft := ← (← fields.member? "peak_left").int?
    peakRight := ← (← fields.member? "peak_right").int?
    underruns := ← (← fields.member? "num_underruns").nat?
    overruns := ← (← fields.member? "num_overruns").nat? }

namespace Listing

/-- The names in a listing. -/
def names? (v : Json) : Option (List String) :=
  ((v.member? "config").bind Json.items?).bind fun items => items.mapM Json.string?

/-- The values in a listing, each under its name. -/
def values? (v : Json) : Option (List (String × Values)) :=
  ((v.member? "values").bind Json.members?).bind fun members =>
    members.mapM fun (name, x) => (Values.ofJson? x).map fun values => (name, values)

/-- The states in a listing, each under its name. -/
def states? (v : Json) : Option (List (String × InputState)) :=
  v.members?.bind fun members =>
    members.mapM fun (name, x) => (InputState.ofJson? x).map fun state => (name, state)

end Listing

theorem InputState.ofJson?_readBack (s : InputState) :
    InputState.ofJson? s.toJson.readBack = some s := by
  cases s <;> rfl

theorem Values.ofJson?_readBack (v : Values) : Values.ofJson? v.toJson.readBack = some v := rfl

/-! ## Values of 64 bits -/

/-- Counts and fill levels of 64 bits, peaks of 16 bits. -/
structure Tally.InRange (t : Tally) : Prop where
  maxFill : t.maxFill ≤ Word.max64
  peakLeft : t.peakLeft ≤ Word.max16
  peakRight : t.peakRight ≤ Word.max16
  underruns : t.underruns ≤ Word.max64
  overruns : t.overruns ≤ Word.max64

theorem Json.fits_object {depth : Nat} {α : Type} {inputs : List (String × α)} (f : α → Json)
    (hfits : ∀ entry ∈ inputs, Json.Fits depth (f entry.2)) :
    Json.Fits (depth + 1) (.object (inputs.map fun (name, a) => (name, f a))) :=
  .object (List.forall_mem_map.mpr hfits)

theorem Tally.InRange.fits {t : Tally} (ht : t.InRange) (depth : Nat) :
    Json.Fits (depth + 2) t.values.toJson := by
  have hleft : silenceFloor ≤ t.values.peakLeft ∧ t.values.peakLeft ≤ 7 :=
    ⟨silenceFloor_le_decibels _, decibels_le_seven ht.peakLeft⟩
  have hright : silenceFloor ≤ t.values.peakRight ∧ t.values.peakRight ≤ 7 :=
    ⟨silenceFloor_le_decibels _, decibels_le_seven ht.peakRight⟩
  have hmaxFill : t.values.maxFill ≤ Word.max64 := ht.maxFill
  have hunderruns : t.values.underruns ≤ Word.max64 := ht.underruns
  have hoverruns : t.values.overruns ≤ Word.max64 := ht.overruns
  have hleast : -1 ≤ t.values.minFill ∧ t.values.minFill ≤ Word.max63 := by
    unfold Tally.values
    cases t.minFill with
    | none =>
      exact ⟨Int.le_refl _, Int.le_trans (show (-1 : Int) ≤ 0 by decide) (Int.natCast_nonneg _)⟩
    | some level =>
      simp only [greatestMinFill]
      omega
  have hwords : 90 ≤ Word.max63 ∧ Word.max63 ≤ Word.max64 := by decide
  have hint : ∀ i : Int, silenceFloor ≤ i → i ≤ Word.max64 → Json.Fits depth (.int i) := by
    intro i hlow hhigh
    unfold silenceFloor at hlow
    exact .int (by omega) hhigh
  unfold silenceFloor at hleft hright hint
  refine .object (List.forall_mem_singleton.mpr (.object ?_))
  simp only [List.forall_mem_cons, List.not_mem_nil, false_implies, implies_true, and_true]
  exact ⟨hint _ (by omega) (by omega), hint _ (by omega) (by omega), hint _ (by omega) (by omega),
    hint _ (by omega) (by omega), hint _ (by omega) (by omega), hint _ (by omega) (by omega)⟩

/-! ## What the listings are read as -/

namespace Listing

variable {now : Instant} {inputs : List (String × Input)}

theorem fits_json (hrange : ∀ entry ∈ inputs, entry.2.tally.InRange) (listing : Listing) :
    Json.Fits Json.maxDepth (listing.json now inputs) := by
  show Json.Fits (126 + 1) (listing.json now inputs)
  cases listing with
  | names =>
    refine .object (List.forall_mem_singleton.mpr (.array ?_))
    exact List.forall_mem_map.mpr fun _ _ => .string _
  | values =>
    refine .object (List.forall_mem_singleton.mpr ?_)
    exact Json.fits_object (fun i => i.tally.values.toJson) fun entry hentry =>
      (hrange entry hentry).fits _
  | states =>
    exact Json.fits_object (fun i : Input => (i.window.classify i.limits now).1.toJson) fun _ _ =>
      .object (List.forall_mem_singleton.mpr (.string _))

/-- A listing that is written as a line is read back. -/
theorem parse_line (hrange : ∀ entry ∈ inputs, entry.2.tally.InRange) (listing : Listing) :
    Json.parse ((listing.json now inputs).compact ++ "\n") =
      .ok (listing.json now inputs).readBack :=
  Json.parse_compact_line (fits_json hrange listing)

/-- Readers that give back each item give back a list of them. -/
theorem mapM_map_eq_some {α β γ : Type} {f : α → β} {g : β → Option γ} {h : α → γ}
    (hread : ∀ a, g (f a) = some (h a)) (items : List α) :
    (items.map f).mapM g = some (items.map h) := by
  induction items with
  | nil => rfl
  | cons a rest ih =>
    rw [List.map_cons, List.mapM_cons, hread, ih]
    rfl

theorem names?_readBack (now : Instant) (inputs : List (String × Input)) :
    names? (Listing.names.json now inputs).readBack = some (Keyed.keys inputs) := by
  have hstrings : (inputs.map fun entry => Json.string entry.1) =
      (Keyed.keys inputs).map .string := by
    rw [Keyed.keys, List.map_map]
    rfl
  have hread : (Listing.names.json now inputs).readBack =
      .object [("config", .array ((Keyed.keys inputs).map .string))] := by
    rw [← Json.readBack_array_strings, ← hstrings]
    rfl
  have hnames : ((Keyed.keys inputs).map Json.string).mapM Json.string? =
      some ((Keyed.keys inputs).map id) :=
    mapM_map_eq_some (f := Json.string) (h := id) (fun _ => rfl) _
  rw [hread]
  exact hnames.trans (congrArg some (List.map_id _))

theorem values?_readBack (now : Instant) (hordered : Keyed.Ordered inputs) :
    values? (Listing.values.json now inputs).readBack =
      some (inputs.map fun (name, i) => (name, i.tally.values)) := by
  have hread : (Listing.values.json now inputs).readBack =
      .object [("values", .object (inputs.map fun (name, i) =>
        (name, i.tally.values.toJson.readBack)))] := by
    rw [← Json.readBack_object hordered fun i => i.tally.values.toJson]
    rfl
  rw [hread]
  exact mapM_map_eq_some (fun (name, i) =>
    congrArg (Option.map fun values => (name, values)) (Values.ofJson?_readBack i.tally.values))
    inputs

theorem states?_readBack (now : Instant) (hordered : Keyed.Ordered inputs) :
    states? (Listing.states.json now inputs).readBack =
      some (inputs.map fun (name, i) => (name, (i.window.classify i.limits now).1)) := by
  have hread : (Listing.states.json now inputs).readBack =
      .object (inputs.map fun (name, i) =>
        (name, (i.window.classify i.limits now).1.toJson.readBack)) :=
    Json.readBack_object hordered fun i => (i.window.classify i.limits now).1.toJson
  rw [hread]
  exact mapM_map_eq_some (fun (name, i) =>
    congrArg (Option.map fun state => (name, state))
      (InputState.ofJson?_readBack (i.window.classify i.limits now).1)) inputs

/-- No listing shows a floating point number. -/
theorem floats_json (now : Instant) (inputs : List (String × Input)) (listing : Listing) :
    (listing.json now inputs).floats = [] := by
  cases listing with
  | names =>
    refine Json.floatsOfMembers_eq_nil (List.forall_mem_singleton.mpr ?_)
    exact Json.floatsOfItems_eq_nil (List.forall_mem_map.mpr fun _ _ => rfl)
  | values =>
    refine Json.floatsOfMembers_eq_nil (List.forall_mem_singleton.mpr ?_)
    exact Json.floatsOfMembers_eq_nil (List.forall_mem_map.mpr fun _ _ => rfl)
  | states => exact Json.floatsOfMembers_eq_nil (List.forall_mem_map.mpr fun _ _ => rfl)

/-- A listing is read back with its members in order, and is otherwise as
it was written. -/
theorem readBack_json (now : Instant) (inputs : List (String × Input)) (listing : Listing) :
    (listing.json now inputs).readBack = (listing.json now inputs).arranged := by
  have hsame : (listing.json now inputs).reread = listing.json now inputs := by
    rw [Json.reread_eq_iff, floats_json]
    exact fun _ hmem => absurd hmem List.not_mem_nil
  rw [Json.readBack, hsame]

/-- The command that asks for a listing. -/
def command : Listing → Command
  | .names => .config
  | .values => .values
  | .states => .state

end Listing

theorem Roster.ordered_shown {r : Roster} (hordered : Keyed.Ordered r.entries) :
    Keyed.Ordered r.shown :=
  (hordered.filter fun entry => r.alive entry.2).filterMap fun entry => r.input? entry.2

theorem Session.sent_listing {s : Session} (hwrites : s.writeFault = none) (now : Instant)
    (station : Station) (listing : Listing) :
    (s.obey now listing.command station).sent =
      (listing.json now station.roster.shown).compact ++ "\n" := by
  rw [← (listing.render_spec now station.roster).1]
  cases listing <;> exact congrArg Advance.sent (close_eq hwrites _ _)

/-- **Greeting and listings are lines that say what was rendered.**
Whatever a service is called, its greeting is one line, the object that
names it, and it is what the client splits off, whatever follows. Whatever
the inputs are called, each listing is one line, which is read as the
listing with its members in order; the names in it are those of the inputs
that are shown, in ascending order, and the values and the states are
those of each of them. -/
theorem replies_framed :
    (∀ name version : String,
      Framed (encode (banner name version)) ∧
      Json.parse (banner name version) =
        .ok (.object [("service", .string (name ++ " " ++ version ++ " MGMT Server"))]) ∧
      ∀ body, Console.splitGreeting (encode (banner name version) ++ body) =
        (encode (banner name version), body)) ∧
    ∀ (s : Session) (now : Instant) (station : Station), s.writeFault = none →
      Keyed.Ordered station.roster.entries →
      (∀ entry ∈ station.roster.shown, entry.2.tally.InRange) →
      let reply := fun listing : Listing => (s.obey now listing.command station).sent
      let decoded := fun listing : Listing => (Json.parse (reply listing)).toOption
      let shown := station.roster.shown
      (∀ listing, Framed (encode (reply listing)) ∧
        decoded listing = some (listing.json now shown).arranged) ∧
      (decoded .names).bind Listing.names? = some (Keyed.keys shown) ∧
      (Keyed.keys shown).Pairwise (· < ·) ∧
      (decoded .values).bind Listing.values? =
        some (shown.map fun (name, i) => (name, i.tally.values)) ∧
      (decoded .states).bind Listing.states? =
        some (shown.map fun (name, i) => (name, (i.window.classify i.limits now).1)) := by
  refine ⟨fun name version => ⟨Json.framed_compact_line _, ?_,
    splitGreeting_encode_line (Json.newline_not_mem_compact _)⟩, ?_⟩
  · exact Json.parse_compact_line
      (show Json.Fits (126 + 1) _ from .object (List.forall_mem_singleton.mpr (.string _)))
  intro s now station hwrites hordered hrange reply decoded shown
  have hreply : ∀ listing, reply listing = (listing.json now shown).compact ++ "\n" :=
    Session.sent_listing hwrites now station
  have hdecoded : ∀ listing, decoded listing = some (listing.json now shown).readBack := by
    intro listing
    show (Json.parse (reply listing)).toOption = _
    rw [hreply, Listing.parse_line hrange]
    rfl
  have hshown : Keyed.Ordered shown := Roster.ordered_shown hordered
  refine ⟨fun listing => ⟨?_, ?_⟩, ?_, hshown, ?_, ?_⟩
  · rw [hreply]
    exact Json.framed_compact_line _
  · rw [hdecoded, Listing.readBack_json]
  · rw [hdecoded]
    exact Listing.names?_readBack now shown
  · rw [hdecoded]
    exact Listing.values?_readBack now hshown
  · rw [hdecoded]
    exact Listing.states?_readBack now hshown

/-- Two inputs, one of them named with a line break and a quote. -/
theorem replies_framed_line_break :
    let station := (((Station.start {} .empty).enroll "b\n\"" 0).2.2.enroll "a" 1).2.2
    let s : Session := { connection := 1, settings := {} }
    Framed (encode (s.obey 5 .config station).sent) ∧
      (s.obey 5 .config station).sent = "\x7b\"config\":[\"a\",\"b\\n\\\"\"]\x7d\n" ∧
      (Json.parse (s.obey 5 .config station).sent).toOption.bind Listing.names? =
        some ["a", "b\n\""] := by
  intro station s
  have hshown : Keyed.keys station.roster.shown = ["a", "b\n\""] := by decide +kernel
  have hrange : ∀ entry ∈ station.roster.shown, entry.2.tally.InRange := by
    have hfresh : ∀ entry ∈ station.roster.shown, entry.2.tally = {} := by decide +kernel
    intro entry hentry
    rw [hfresh entry hentry]
    constructor <;> decide
  obtain ⟨hframed, hnames, -⟩ := replies_framed.2 s 5 station rfl
    (by unfold Keyed.Ordered; decide +kernel) hrange
  exact ⟨(hframed .names).1, by decide +kernel, hnames.trans (congrArg some hshown)⟩

end MuxControl
