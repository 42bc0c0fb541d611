/-
MuxControl.Proofs.RosterHistory — what is listed follows from what was
done.

A name is held by the input that was listed under it last, unless the
name was taken away since. Inputs come to be listed by themselves or
behind their own back; their entries go with them, by name, or in a
render that prunes. `Keeps` ties the entries to the holders: every entry
is that of the holder, and every holder that is alive has its entry. What
only sheds entries of dead inputs keeps it, so the operations that list
an input or take a name away are the ones to look at.

`listed_reached` reads off what all listings show.
-/
import MuxControl.Proofs.RosterEffects

namespace MuxControl

namespace Roster

variable {r r' : Roster}

/-! ## Runs -/

/-- What may be done to a roster and its inputs. Letting go of an input
and what a dead one does last may happen apart. -/
inductive Operation where
  | create (name : String) (now : Instant)
  | enroll (name : String) (now : Instant)
  | registerSelf (n : InputId)
  | register (n : InputId)
  | unregister (name : String)
  | hold (n : InputId)
  | release (n : InputId)
  | retire (n : InputId)
  | drop (n : InputId)
  | ids
  | renderConfig
  | renderValues
  | renderState (now : Instant)

/-- Whether an operation renders the inputs that are listed. -/
def Operation.renders : Operation → Bool
  | .ids | .renderConfig | .renderValues | .renderState _ => true
  | _ => false

/-- What comes of an operation. An input that is not alive is out of
reach. -/
def perform (r : Roster) : Operation → Roster
  | .create name now => (r.create name now).2
  | .enroll name now => (r.enroll name now).2.2
  | .registerSelf n => if r.alive n then (r.registerSelf n).2 else r
  | .register n => if r.alive n then (r.register n).2 else r
  | .unregister name => r.unregister name
  | .hold n => if r.alive n then r.hold n else r
  | .release n => r.release n
  | .retire n => r.retire n
  | .drop n => r.drop n
  | .ids => r.ids.2
  | .renderConfig => r.renderConfig.2
  | .renderValues => r.renderValues.2
  | .renderState now => (r.renderState now).2

/-- The name and the input that an operation lists, if it does. -/
def listing? (r : Roster) : Operation → Option (String × InputId)
  | .enroll name now => (r.create name now).2.listsSelf? (r.create name now).1
  | .registerSelf n => if r.alive n then r.listsSelf? n else none
  | .register n => if r.alive n then r.lists? n else none
  | _ => none

/-- The holders of the names once a name and an input were listed. -/
def relisted (holder : String → Option InputId) :
    Option (String × InputId) → String → Option InputId
  | none => holder
  | some (name, n) => fun other => if other = name then some n else holder other

/-- The holders of the names after an operation. -/
def holderAfter (r : Roster) (holder : String → Option InputId) :
    Operation → String → Option InputId
  | .unregister name => fun other => if other = name then none else holder other
  | operation => relisted holder (r.listing? operation)

/-- What was done to a roster, the latest operation first. -/
abbrev History := List Operation

/-- What comes of a history that starts without inputs. -/
def reached (limits : Thresholds) : History → Roster
  | [] => { limits := limits }
  | operation :: earlier => (reached limits earlier).perform operation

/-- The input that was listed last under a name, if the name was not
taken away since. -/
def holder? (limits : Thresholds) : History → String → Option InputId
  | [] => fun _ => none
  | operation :: earlier => (reached limits earlier).holderAfter (holder? limits earlier) operation

/-! ## Entries and holders -/

/-- The entries are those of the holders, and every holder that is alive
has its entry. -/
structure Keeps (r : Roster) (holder : String → Option InputId) : Prop where
  ordered : Keyed.Ordered r.entries
  held : ∀ name n, Keyed.get? name r.entries = some n → holder name = some n
  living : ∀ name n, holder name = some n → r.alive n = true →
    Keyed.get? name r.entries = some n
  known : ∀ name n, holder name = some n → n < r.slots.length

variable {holder : String → Option InputId}

theorem Keeps.sheds (hkeeps : r.Keeps holder) (hsheds : r.Sheds r') : r'.Keeps holder where
  ordered := hsheds.ordered hkeeps.ordered
  held name n hget := hkeeps.held name n (hsheds.kept hkeeps.ordered name n hget)
  living name n hholder halive := by
    have hknown := hkeeps.known name n hholder
    have hbefore := hkeeps.living name n hholder (hsheds.alive n hknown halive)
    exact hsheds.living name n hknown halive hbefore
  known name n hholder := Nat.lt_of_lt_of_le (hkeeps.known name n hholder) hsheds.grown

theorem Keeps.unregister (hkeeps : r.Keeps holder) (name : String) :
    (r.unregister name).Keeps fun other => if other = name then none else holder other := by
  refine ⟨ordered_unregister hkeeps.ordered name, fun other n hentry => ?_,
    fun other n hholder halive => ?_, fun other n hholder => ?_⟩
  · rw [get?_unregister] at hentry
    obtain ⟨hne, hbefore⟩ := Option.ite_none_left_eq_some.mp hentry
    simp only [hne, if_false]
    exact hkeeps.held other n hbefore
  · obtain ⟨hne, hbefore⟩ := Option.ite_none_left_eq_some.mp hholder
    rw [alive, slots_unregister] at halive
    rw [get?_unregister, if_neg hne]
    exact hkeeps.living other n hbefore halive
  · obtain ⟨_, hbefore⟩ := Option.ite_none_left_eq_some.mp hholder
    rw [slots_unregister]
    exact hkeeps.known other n hbefore

theorem Keeps.register (hkeeps : r.Keeps holder) (n : InputId) :
    (r.register n).2.Keeps (relisted holder (r.lists? n)) := by
  obtain ⟨hnone, hsame⟩ | ⟨name, hlists, _, hknown, hslots, hentries⟩ := r.register_cases n
  · rw [hnone, hsame]
    exact hkeeps
  · rw [hlists]
    refine ⟨?_, fun other m hentry => ?_, fun other m hholder halive => ?_,
      fun other m hholder => ?_⟩
    · rw [hentries]
      exact hkeeps.ordered.put name n
    · rw [hentries] at hentry
      by_cases heq : other = name
      · rw [heq, Keyed.get?_put_self] at hentry
        simpa [relisted, heq] using hentry
      · rw [Keyed.get?_put_of_ne heq] at hentry
        simpa [relisted, heq] using hkeeps.held other m hentry
    · rw [alive, hslots] at halive
      rw [hentries]
      by_cases heq : other = name
      · rw [heq, Keyed.get?_put_self]
        simpa [relisted, heq] using hholder
      · rw [Keyed.get?_put_of_ne heq]
        exact hkeeps.living other m (by simpa [relisted, heq] using hholder) halive
    · rw [hslots]
      by_cases heq : other = name
      · obtain rfl : n = m := by simpa [relisted, heq] using hholder
        exact hknown
      · exact hkeeps.known other m (by simpa [relisted, heq] using hholder)

theorem Keeps.registerSelf (hkeeps : r.Keeps holder) (n : InputId) :
    (r.registerSelf n).2.Keeps (relisted holder (r.listsSelf? n)) := by
  obtain ⟨hnone, hsame⟩ | ⟨hlists, _, hchange⟩ := r.registerSelf_cases n
  · rw [hnone, hsame]
    exact hkeeps
  · rw [hlists, hchange]
    exact (hkeeps.register n).sheds (sheds_change _ n _)

/-- Every operation keeps the entries tied to the holders. -/
theorem Keeps.perform (hkeeps : r.Keeps holder) (operation : Operation) :
    (r.perform operation).Keeps (r.holderAfter holder operation) := by
  cases operation with
  | create name now => exact hkeeps.sheds (r.sheds_create name now)
  | enroll name now => exact (hkeeps.sheds (r.sheds_create name now)).registerSelf _
  | registerSelf n =>
    simp only [Roster.perform, holderAfter, listing?]
    by_cases halive : r.alive n = true
    · simp only [halive, if_true]
      exact hkeeps.registerSelf n
    · simp only [halive]
      exact hkeeps
  | register n =>
    simp only [Roster.perform, holderAfter, listing?]
    by_cases halive : r.alive n = true
    · simp only [halive, if_true]
      exact hkeeps.register n
    · simp only [halive]
      exact hkeeps
  | unregister name => exact hkeeps.unregister name
  | hold n =>
    simp only [Roster.perform, holderAfter, listing?]
    by_cases halive : r.alive n = true
    · simp only [halive, if_true]
      exact hkeeps.sheds (sheds_hold halive)
    · simp only [halive]
      exact hkeeps
  | release n => exact hkeeps.sheds (r.sheds_release n)
  | retire n => exact hkeeps.sheds (r.sheds_retire n)
  | drop n => exact hkeeps.sheds (r.sheds_drop n)
  | ids => exact hkeeps.sheds (sheds_renderEach _ r)
  | renderConfig => exact hkeeps.sheds (sheds_renderEach _ r)
  | renderValues => exact hkeeps.sheds (sheds_renderEach _ r)
  | renderState now => exact hkeeps.sheds (sheds_renderEach _ r)

theorem keeps_reached (limits : Thresholds) (history : History) :
    (reached limits history).Keeps (holder? limits history) := by
  induction history with
  | nil =>
    exact ⟨List.Pairwise.nil, fun _ _ hnone => (by cases hnone), fun _ _ hnone => (by cases hnone),
      fun _ _ hnone => by cases hnone⟩
  | cons operation earlier ih => exact ih.perform operation

/-- What is exposed under a name is its holder, if that is alive. -/
theorem Keeps.exposed?_iff (hkeeps : r.Keeps holder) {name : String} {n : InputId} :
    r.exposed? name = some n ↔ holder name = some n ∧ r.alive n = true := by
  rw [exposed?_eq_some_iff]
  constructor
  · rintro ⟨hget, halive⟩
    exact ⟨hkeeps.held name n hget, halive⟩
  · rintro ⟨hholder, halive⟩
    exact ⟨hkeeps.living name n hholder halive, halive⟩

/-! ## What the listings show -/

/-- All listings, and the question for each name, show the same names. -/
structure Shows (r : Roster) (names : List String) : Prop where
  ids : r.ids.1 = names
  config : r.renderConfig.1 = .object [("config", .array (names.map .string))]
  values : ∃ members, r.renderValues.1 = .object [("values", .object members)] ∧
    Keyed.keys members = names
  states : ∀ now, ∃ members, (r.renderState now).1 = .object members ∧
    Keyed.keys members = names
  registered : ∀ name, r.isRegistered name = true ↔ name ∈ names

theorem mem_liveEntries_iff (hordered : Keyed.Ordered r.entries) {name : String} {n : InputId} :
    (name, n) ∈ r.liveEntries ↔ r.exposed? name = some n := by
  rw [exposed?_eq_some_iff, hordered.get?_eq_some_iff]
  exact List.mem_filter

theorem mem_keys_liveEntries (hordered : Keyed.Ordered r.entries) (name : String) :
    name ∈ Keyed.keys r.liveEntries ↔ ∃ n, r.exposed? name = some n := by
  constructor
  · intro hmem
    obtain ⟨⟨key, n⟩, hentry, rfl⟩ := List.mem_map.mp hmem
    exact ⟨n, (mem_liveEntries_iff hordered).mp hentry⟩
  · rintro ⟨n, hexposed⟩
    exact List.mem_map_of_mem ((mem_liveEntries_iff hordered).mpr hexposed)

theorem shows_liveEntries (hordered : Keyed.Ordered r.entries) :
    r.Shows (Keyed.keys r.liveEntries) := by
  have hids : r.ids.1 = Keyed.keys r.liveEntries := keys_renderEach _ r
  refine ⟨hids, ?_, ⟨_, rfl, ?_⟩, fun now => ⟨_, rfl, ?_⟩, fun name => ?_⟩
  · rw [← hids]
    rfl
  · exact (Keyed.keys_map _ _).trans (keys_renderEach Input.renderValues r)
  · exact (Keyed.keys_map _ _).trans (keys_renderEach (·.renderState now) r)
  · rw [mem_keys_liveEntries hordered]
    exact Option.isSome_iff_exists

/-! ## What is left alone -/

/-- Every entry, and every input but one, is as it was. -/
structure Spares (r : Roster) (n : InputId) (r' : Roster) : Prop where
  entries : r'.entries = r.entries
  others : ∀ m, m ≠ n → r'.slots[m]? = r.slots[m]?

theorem spares_registerSelf {n : InputId} (hfailed : (r.registerSelf n).1 = false) :
    r.Spares n (r.registerSelf n).2 := by
  obtain ⟨_, hsame⟩ | ⟨_, hresult, hchange⟩ := r.registerSelf_cases n
  · rw [hsame]
    exact ⟨rfl, fun _ _ => rfl⟩
  · rw [hfailed] at hresult
    cases hregister : (r.register n).1 with
    | ok _ =>
      rw [hregister] at hresult
      cases hresult
    | error error =>
      rw [hchange, register_of_error hregister]
      refine ⟨rfl, fun m hne => ?_⟩
      simp [change, hne.symm]

theorem spares_enroll {name : String} {now : Instant}
    (hfailed : (r.enroll name now).1 = false) :
    r.Spares r.slots.length (r.enroll name now).2.2 := by
  have hself : ((r.create name now).2.registerSelf r.slots.length).1 = false := hfailed
  obtain ⟨hentries, hothers⟩ := spares_registerSelf hself
  refine ⟨hentries, fun m hne => ?_⟩
  refine (hothers m hne).trans ?_
  rcases Nat.lt_or_gt_of_ne hne with hlt | hgt
  · exact List.getElem?_append_left hlt
  · unfold create
    rw [List.getElem?_eq_none (Nat.le_of_lt hgt), List.getElem?_eq_none]
    rw [List.length_append]
    exact hgt

/-- **What is listed.** At any point of a history, all listings show, in
strictly ascending order, the names that are held by an input that is
alive, and the entry of such a name is that of its holder. A name is free
unless its holder is alive. One that is taken is no reason to change an
entry or another input, an input that ends takes away no entry of another
one, and no render prunes the entry of an input that is alive. -/
theorem listed_reached (limits : Thresholds) (history : History) :
    let r := reached limits history
    (∃ names : List String, names.Pairwise (· < ·) ∧ r.Shows names ∧
      ∀ name, name ∈ names ↔
        ∃ n, holder? limits history name = some n ∧ r.alive n = true) ∧
    (∀ name n, (Keyed.get? name r.entries = some n ∧ r.alive n = true) ↔
      (holder? limits history name = some n ∧ r.alive n = true)) ∧
    (∀ n input, r.input? n = some input → ((r.register n).1 = .ok () ↔
      ∀ m, holder? limits history input.name = some m → r.alive m = false)) ∧
    (∀ n error, (r.register n).1 = .error error → (r.register n).2 = r) ∧
    (∀ n, (r.registerSelf n).1 = false → r.Spares n (r.registerSelf n).2) ∧
    (∀ name now, (r.enroll name now).1 = false →
      r.Spares r.slots.length (r.enroll name now).2.2) ∧
    (∀ n m name, m ≠ n → Keyed.get? name r.entries = some m →
      Keyed.get? name (r.drop n).entries = some m) ∧
    ∀ operation name n, operation.renders = true → Keyed.get? name r.entries = some n →
      r.alive n = true → Keyed.get? name (r.perform operation).entries = some n := by
  intro r
  have hkeeps : r.Keeps (holder? limits history) := keeps_reached limits history
  refine ⟨⟨Keyed.keys r.liveEntries, ?_, shows_liveEntries hkeeps.ordered, fun name => ?_⟩, ?_,
    fun n input hinput => ?_, fun _ _ => register_of_error, fun _ => spares_registerSelf,
    fun _ _ => spares_enroll, fun n m name hne hget => ?_,
    fun operation name n hrenders hget halive => ?_⟩
  · exact hkeeps.ordered.filter _
  · rw [mem_keys_liveEntries hkeeps.ordered]
    exact exists_congr fun n => hkeeps.exposed?_iff
  · intro name n
    rw [← exposed?_eq_some_iff]
    exact hkeeps.exposed?_iff
  · rw [register_eq_ok_iff hinput, Option.eq_none_iff_forall_ne_some]
    refine forall_congr' fun m => ?_
    rw [Ne, hkeeps.exposed?_iff, not_and, Bool.not_eq_true]
  · show Keyed.get? name ((r.release n).retire n).entries = some m
    exact get?_retire_of_ne hne hget
  · cases operation with
    | ids => exact get?_renderEach _ hget halive
    | renderConfig => exact get?_renderEach _ hget halive
    | renderValues => exact get?_renderEach _ hget halive
    | renderState now => exact get?_renderEach _ hget halive
    | _ => cases hrenders

end Roster

end MuxControl
