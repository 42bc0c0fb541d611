/-
MuxControl.Proofs.BulkRender — a bulk render is the render of each input
that is listed, made once.

A bulk render goes through the entries and changes the roster under way.
`Decomposes` says input by input what comes of it. Under each name that is
exposed stands what that input renders by itself, and the input is left
as its own render leaves it; any other input is left alone, a rejected
namesake or one that was taken off the list included. The entries that
are gone are those of dead inputs.

`Tied.decomposes` shows this of every render there is. It need not give
the same thing when made again, so no input is rendered twice: what that
rests on is that no input has two entries (`Tied.nodup_liveEntries`).
`bulk_renders_decompose` puts it together for the listings.
-/
import MuxControl.Proofs.RosterActivity
import Mathlib.Data.List.Nodup

namespace MuxControl

namespace Roster

variable {α : Type} {r r' : Roster} {n : InputId}

/-! ## Input by input -/

/-- Whether an input is exposed, under whatever name. -/
def Exposes (r : Roster) (n : InputId) : Prop := ∃ name, r.exposed? name = some n

/-- What the input that is exposed under a name renders by itself. -/
def ownRender? (r : Roster) (render : Input → α × Input) (name : String) : Option α :=
  (r.exposed? name).bind fun n => (r.input? n).map fun i => (render i).1

/-- Of the entries just those of dead inputs are gone. -/
structure Pruned (r r' : Roster) : Prop where
  ordered : Keyed.Ordered r'.entries
  entries : ∀ name, Keyed.get? name r'.entries = r.exposed? name
  limits : r'.limits = r.limits
  gauge : r'.gauge = r.gauge

/-- What is rendered, and what is left behind, is what the renders of the
exposed inputs give one by one. -/
structure Decomposes (r : Roster) (render : Input → α × Input) (rendered : List (String × α))
    (r' : Roster) : Prop where
  ordered : Keyed.Ordered rendered
  shown : ∀ name, Keyed.get? name rendered = r.ownRender? render name
  exposed : ∀ n, r.Exposes n →
    r'.slots[n]? = r.slots[n]?.map fun slot => { slot with input := (render slot.input).2 }
  others : ∀ n, ¬ r.Exposes n → r'.slots[n]? = r.slots[n]?
  pruned : r.Pruned r'

/-! ## What a render goes through -/

theorem Tied.ordered (htied : r.Tied) : Keyed.Ordered r.entries := by
  obtain ⟨holder, hkeeps, -⟩ := htied
  exact hkeeps.ordered

theorem isShown_iff_exposes (hordered : Keyed.Ordered r.entries) : r.IsShown n ↔ r.Exposes n := by
  constructor
  · intro hshown
    obtain ⟨⟨name, m⟩, hentry, rfl⟩ := List.mem_map.mp hshown
    exact ⟨name, (mem_liveEntries_iff hordered).mp hentry⟩
  · rintro ⟨name, hexposed⟩
    exact List.mem_map_of_mem ((mem_liveEntries_iff hordered).mpr hexposed)

/-- Each input is changed once if no number comes up twice. -/
theorem slots_foldl_change_of_nodup (f : Input → Input) {entries : List (String × InputId)}
    (hnodup : (entries.map Prod.snd).Nodup) (r : Roster) (m : InputId) :
    (entries.foldl (fun r (_, n) => r.change n f) r).slots[m]? = r.slots[m]?.map fun slot =>
      if m ∈ entries.map Prod.snd then { slot with input := f slot.input } else slot := by
  rw [slots_foldl_change_iterate]
  congr 1
  funext slot
  split
  · next hmem =>
    rw [List.count_eq_one_of_mem hnodup hmem]
    rfl
  · next hnot =>
    rw [List.count_eq_zero.mpr hnot]
    rfl

theorem pruned_prune (hordered : Keyed.Ordered r.entries) : r.Pruned r.prune where
  ordered := hordered.filter _
  entries name := by
    refine Option.ext fun n => ?_
    have hlive : Keyed.Ordered r.prune.entries := hordered.filter _
    rw [hlive.get?_eq_some_iff]
    exact mem_liveEntries_iff hordered
  limits := rfl
  gauge := rfl

theorem pruned_renderEach (hordered : Keyed.Ordered r.entries) (render : Input → α × Input) :
    r.Pruned (r.renderEach render).2 := by
  have hpruned := pruned_prune hordered
  have hentries : (r.renderEach render).2.entries = r.prune.entries := entries_renderEach render r
  obtain ⟨hlimits, hgauge⟩ := aside_foldl_change (f := fun i => (render i).2) r.liveEntries r
  refine ⟨?_, ?_, hlimits, hgauge⟩
  · rw [hentries]
    exact hpruned.ordered
  · rw [hentries]
    exact hpruned.entries

/-- Under a name stands what the input that it exposes renders by itself. -/
theorem get?_fst_renderEach (hordered : Keyed.Ordered r.entries) (render : Input → α × Input)
    (name : String) :
    Keyed.get? name (r.renderEach render).1 = r.ownRender? render name := by
  have hrendered : Keyed.Ordered (r.renderEach render).1 := by
    rw [Keyed.Ordered, keys_renderEach]
    exact hordered.filter _
  refine Option.ext fun value => ?_
  rw [hrendered.get?_eq_some_iff, ownRender?, Option.bind_eq_some_iff]
  constructor
  · intro hmem
    obtain ⟨⟨other, n⟩, hentry, hmade⟩ := List.mem_filterMap.mp hmem
    obtain ⟨i, hinput, hsame⟩ := Option.map_eq_some_iff.mp hmade
    obtain ⟨rfl, rfl⟩ := Prod.mk.inj hsame
    exact ⟨n, (mem_liveEntries_iff hordered).mp hentry, Option.map_eq_some_iff.mpr ⟨i, hinput, rfl⟩⟩
  · rintro ⟨n, hexposed, hmade⟩
    obtain ⟨i, hinput, rfl⟩ := Option.map_eq_some_iff.mp hmade
    refine List.mem_filterMap.mpr ⟨(name, n), (mem_liveEntries_iff hordered).mpr hexposed, ?_⟩
    simp only [hinput, Option.map_some]

/-- **A bulk render decomposes**, whatever it renders, in a roster whose
entries are those of the inputs by whose names they go. -/
theorem Tied.decomposes (htied : r.Tied) (render : Input → α × Input) :
    r.Decomposes render (r.renderEach render).1 (r.renderEach render).2 := by
  have hordered := htied.ordered
  have hslots : ∀ n, (r.renderEach render).2.slots[n]? = r.slots[n]?.map fun slot =>
      if r.IsShown n then { slot with input := (render slot.input).2 } else slot :=
    slots_foldl_change_of_nodup (fun i => (render i).2) htied.nodup_liveEntries r
  refine ⟨?_, get?_fst_renderEach hordered render, fun n hexposes => ?_, fun n hhidden => ?_,
    pruned_renderEach hordered render⟩
  · rw [Keyed.Ordered, keys_renderEach]
    exact hordered.filter _
  · simp only [hslots, (isShown_iff_exposes hordered).mpr hexposes, if_true]
  · have hnot : ¬ r.IsShown n := fun hshown => hhidden ((isShown_iff_exposes hordered).mp hshown)
    simp [hslots, hnot]

/-! ## The listings -/

/-- A render that shows nothing of the inputs does nothing to them. -/
theorem slots_ids (r : Roster) : r.ids.2.slots = r.slots := by
  show (r.renderEach fun i => ((), i)).2.slots = r.slots
  refine List.ext_getElem? fun n => ?_
  rw [(rendered_renderEach (fun i => ((), i)) (fun _ => rfl) r).slots]
  simp

/-- **A listing renders each exposed input once, and nothing else.**
Whatever went on in a roster, the listings of the values and of the states
show under each name that is exposed what its input would have shown by
itself, and leave that input as its own render would have left it. They
touch no other input and take away just the entries of dead inputs. The
listing of the names shows those that are exposed, and touches no input. -/
theorem bulk_renders_decompose (limits : Thresholds) (activities : Activities) (now : Instant) :
    let r := worked limits activities
    (∃ values, r.renderValues.1 =
        .object [("values", .object (values.map fun (name, v) => (name, v.toJson)))] ∧
      r.Decomposes Input.renderValues values r.renderValues.2) ∧
    (∃ states, (r.renderState now).1 =
        .object (states.map fun (name, state) => (name, state.toJson)) ∧
      r.Decomposes (·.renderState now) states (r.renderState now).2) ∧
    (r.ids.1.Pairwise (· < ·) ∧ ∀ name, name ∈ r.ids.1 ↔ ∃ n, r.exposed? name = some n) ∧
    r.renderConfig.1 = .object [("config", .array (r.ids.1.map .string))] ∧
    (r.ids.2.slots = r.slots ∧ r.Pruned r.ids.2) ∧
    (r.renderConfig.2.slots = r.slots ∧ r.Pruned r.renderConfig.2) := by
  intro r
  have htied : r.Tied := tied_worked limits activities
  have hids : r.ids.1 = Keyed.keys r.liveEntries := keys_renderEach _ r
  have hpruned : r.Pruned r.ids.2 := pruned_renderEach htied.ordered _
  refine ⟨⟨_, rfl, htied.decomposes Input.renderValues⟩, ⟨_, rfl, htied.decomposes _⟩, ⟨?_, ?_⟩,
    rfl, ⟨slots_ids r, hpruned⟩, slots_ids r, hpruned⟩
  · rw [hids]
    exact htied.ordered.filter _
  · intro name
    rw [hids]
    exact mem_keys_liveEntries htied.ordered name

/-- A namesake that was turned away keeps what was reported to it. -/
example :
    let r := worked {} [.direct 1 3 (.report (.level 7)), .direct 0 2 (.report (.level 5)),
      .operation (.enroll "in" 1), .operation (.enroll "in" 0)]
    r.ownRender? Input.renderValues "in" = some ⟨5, 5, -90, -90, 0, 0⟩ ∧
      (r.renderValues.2.input? 0).map Input.tally = some {} ∧
      r.renderValues.2.input? 1 = r.input? 1 := by
  decide +kernel

end Roster

end MuxControl
