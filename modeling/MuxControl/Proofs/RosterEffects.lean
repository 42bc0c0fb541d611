/-
MuxControl.Proofs.RosterEffects — what the operations on a roster do to
its entries and to who is alive.

All that neither lists an input nor takes a name away only sheds entries
of inputs that are dead, and brings nobody to life but new inputs: it
`Sheds`. `retire_cases`, `register_cases` and `registerSelf_cases` say
all that the three operations with an outcome of their own may do;
`entries_renderEach` and `keys_renderEach` do so for the renders.
-/
import MuxControl.Roster.Basic

namespace MuxControl

namespace Roster

/-! ## What is left of the entries and of who is alive -/

variable {r r' r'' : Roster}

theorem alive_iff {n : InputId} :
    r.alive n = true ↔ ∃ slot, r.slots[n]? = some slot ∧ slot.alive = true := by
  unfold alive
  cases r.slots[n]? <;> simp

theorem lt_of_input? {n : InputId} {input : Input} (hinput : r.input? n = some input) :
    n < r.slots.length := by
  obtain ⟨slot, hslot, _⟩ := Option.map_eq_some_iff.mp hinput
  exact (List.getElem?_eq_some_iff.mp hslot).1

theorem exposed?_eq_some_iff {name : String} {n : InputId} :
    r.exposed? name = some n ↔ Keyed.get? name r.entries = some n ∧ r.alive n = true := by
  unfold exposed?
  rw [Option.filter_eq_some_iff]

/-- What does not hold more than before in any slot makes no input
alive. -/
theorem alive_of_modify {n m : InputId} {f : Slot → Slot}
    (hf : ∀ slot, r.slots[n]? = some slot → (f slot).alive = true → slot.alive = true)
    (hslots : r'.slots = r.slots.modify n f) (halive : r'.alive m = true) :
    r.alive m = true := by
  obtain ⟨slot, hslot, hheld⟩ := alive_iff.mp halive
  rw [hslots, List.getElem?_modify] at hslot
  obtain ⟨before, hbefore, hsame⟩ := Option.map_eq_some_iff.mp hslot
  refine alive_iff.mpr ⟨before, hbefore, ?_⟩
  by_cases heq : n = m
  · subst heq
    rw [if_pos rfl] at hsame
    rw [← hsame] at hheld
    exact hf before hbefore hheld
  · rw [if_neg heq] at hsame
    exact hsame ▸ hheld

/-- What changes no holders changes nobody's being alive. -/
theorem alive_modify {n : InputId} {f : Slot → Slot} (hf : ∀ slot, (f slot).alive = slot.alive)
    (hslots : r'.slots = r.slots.modify n f) (m : InputId) : r'.alive m = r.alive m := by
  unfold alive
  rw [hslots, List.getElem?_modify]
  cases r.slots[m]? with
  | none => rfl
  | some slot =>
    by_cases heq : n = m
    · simp [heq, hf]
    · simp [heq]

/-- What neither lists an input nor takes a name away: it keeps entries
that were there, and those of all inputs that are alive, and no input
comes to life but new ones. -/
structure Sheds (r r' : Roster) : Prop where
  ordered : Keyed.Ordered r.entries → Keyed.Ordered r'.entries
  kept : Keyed.Ordered r.entries → ∀ name n, Keyed.get? name r'.entries = some n →
    Keyed.get? name r.entries = some n
  living : ∀ name n, n < r.slots.length → r'.alive n = true →
    Keyed.get? name r.entries = some n → Keyed.get? name r'.entries = some n
  alive : ∀ n, n < r.slots.length → r'.alive n = true → r.alive n = true
  grown : r.slots.length ≤ r'.slots.length

/-- What leaves the entries alone. -/
theorem Sheds.aside (hentries : r'.entries = r.entries)
    (halive : ∀ n, n < r.slots.length → r'.alive n = true → r.alive n = true)
    (hgrown : r.slots.length ≤ r'.slots.length) : Sheds r r' where
  ordered hordered := by rwa [hentries]
  kept _ name n hget := by rwa [hentries] at hget
  living name n _ _ hget := by rwa [hentries]
  alive := halive
  grown := hgrown

theorem Sheds.trans (hfirst : Sheds r r') (hsecond : Sheds r' r'') : Sheds r r'' where
  ordered hordered := hsecond.ordered (hfirst.ordered hordered)
  kept hordered name n hget :=
    hfirst.kept hordered name n (hsecond.kept (hfirst.ordered hordered) name n hget)
  living name n hknown halive hget := by
    have hlater := Nat.lt_of_lt_of_le hknown hfirst.grown
    refine hsecond.living name n hlater halive ?_
    exact hfirst.living name n hknown (hsecond.alive n hlater halive) hget
  alive n hknown halive :=
    hfirst.alive n hknown (hsecond.alive n (Nat.lt_of_lt_of_le hknown hfirst.grown) halive)
  grown := Nat.le_trans hfirst.grown hsecond.grown

theorem sheds_create (r : Roster) (name : String) (now : Instant) :
    r.Sheds (r.create name now).2 := by
  refine .aside rfl (fun n hknown halive => ?_) ?_
  · obtain ⟨slot, hslot, hheld⟩ := alive_iff.mp halive
    unfold create at hslot
    rw [List.getElem?_append_left hknown] at hslot
    exact alive_iff.mpr ⟨slot, hslot, hheld⟩
  · simp [create]

theorem alive_change (r : Roster) (n : InputId) (f : Input → Input) (m : InputId) :
    (r.change n f).alive m = r.alive m := by
  refine alive_modify (fun slot => ?_) rfl m
  rfl

theorem sheds_change (r : Roster) (n : InputId) (f : Input → Input) : r.Sheds (r.change n f) := by
  refine .aside rfl (fun m _ halive => (r.alive_change n f m).symm.trans halive) ?_
  simp [change]

theorem sheds_hold {n : InputId} (halive : r.alive n = true) : r.Sheds (r.hold n) := by
  refine .aside rfl (fun m _ hheld => ?_) ?_
  · obtain ⟨slot, hslot, hbefore⟩ := alive_iff.mp halive
    refine alive_of_modify (fun other hother _ => ?_) rfl hheld
    obtain rfl := Option.some.inj (hslot.symm.trans hother)
    exact hbefore
  · simp [hold]

theorem sheds_release (r : Roster) (n : InputId) : r.Sheds (r.release n) := by
  refine .aside rfl (fun m _ hheld => ?_) ?_
  · refine alive_of_modify (fun slot _ hafter => ?_) rfl hheld
    simp only [Slot.alive, decide_eq_true_eq] at hafter ⊢
    exact Nat.lt_of_lt_of_le hafter (Nat.sub_le _ _)
  · simp [release]

theorem slots_unregisterInput (r : Roster) (name : String) (n : InputId) :
    (r.unregisterInput name n).slots = r.slots := by
  unfold unregisterInput
  split <;> rfl

theorem entries_unregisterInput (r : Roster) (name : String) (n : InputId) :
    (r.unregisterInput name n).entries =
      if Keyed.get? name r.entries = some n then Keyed.remove name r.entries
      else r.entries := by
  unfold unregisterInput
  split <;> rfl

/-- What a dead input does last, if it does anything to the entries, is to
take away its own. -/
theorem retire_cases (r : Roster) (n : InputId) :
    ∃ retired : Roster, retired.entries = r.entries ∧ (∀ m, retired.alive m = r.alive m) ∧
      retired.slots.length = r.slots.length ∧
      (r.retire n = retired ∨
        r.alive n = false ∧ ∃ name, r.retire n = retired.unregisterInput name n) := by
  unfold retire
  cases hslot : r.slots[n]? with
  | none => exact ⟨r, rfl, fun _ => rfl, rfl, .inl rfl⟩
  | some slot =>
    by_cases hdone : (slot.alive || slot.retired) = true
    · refine ⟨r, rfl, fun _ => rfl, rfl, .inl ?_⟩
      simp only [hdone, if_true]
    · obtain ⟨hdead, _⟩ := Bool.or_eq_false_iff.mp (Bool.eq_false_iff.mpr hdone)
      have hnot : r.alive n = false := by simp [alive, hslot, hdead]
      let retired : Roster :=
        { r with slots := r.slots.modify n fun s => { s with retired := true } }
      have halive : ∀ m, retired.alive m = r.alive m := by
        refine alive_modify (fun slot => ?_) rfl
        rfl
      refine ⟨retired, rfl, halive, List.length_modify .., ?_⟩
      simp only [hdone]
      by_cases hmarked : slot.input.marked = true
      · refine .inr ⟨hnot, slot.input.name, ?_⟩
        simp only [hmarked, if_true]
        rfl
      · refine .inl ?_
        simp only [hmarked]
        rfl

/-- Nothing is taken away from another input. -/
theorem get?_retire_of_ne {n m : InputId} (hne : m ≠ n) {name : String}
    (hget : Keyed.get? name r.entries = some m) :
    Keyed.get? name (r.retire n).entries = some m := by
  obtain ⟨retired, hentries, _, _, hsame | ⟨_, own, htaken⟩⟩ := r.retire_cases n
  · rw [hsame, hentries]
    exact hget
  · rw [htaken, entries_unregisterInput, hentries]
    by_cases hown : Keyed.get? own r.entries = some n
    · have hother : name ≠ own := by
        intro heq
        rw [heq, hown] at hget
        exact hne (Option.some.inj hget).symm
      rw [if_pos hown, Keyed.get?_remove_of_ne hother]
      exact hget
    · rw [if_neg hown]
      exact hget

theorem sheds_retire (r : Roster) (n : InputId) : r.Sheds (r.retire n) := by
  obtain ⟨retired, hentries, halive, hlength, hsame | ⟨hdead, own, htaken⟩⟩ := r.retire_cases n
  · rw [hsame]
    exact .aside hentries (fun m _ hheld => (halive m).symm.trans hheld) (Nat.le_of_eq hlength.symm)
  · have hslots : (r.retire n).slots = retired.slots := by
      rw [htaken, slots_unregisterInput]
    have hheld : ∀ m, (r.retire n).alive m = r.alive m := by
      intro m
      rw [← halive m, alive, hslots, alive]
    refine ⟨fun hordered => ?_, fun hordered name m hget => ?_, fun name m _ hlives hget => ?_,
      fun m _ hlives => (hheld m).symm.trans hlives, ?_⟩
    · rw [htaken, entries_unregisterInput, hentries]
      split
      · exact hordered.remove own
      · exact hordered
    · rw [htaken, entries_unregisterInput, hentries] at hget
      by_cases hown : Keyed.get? own r.entries = some n
      · rw [if_pos hown] at hget
        by_cases heq : name = own
        · rw [heq, Keyed.get?_remove_self] at hget
          cases hget
        · rwa [Keyed.get?_remove_of_ne heq] at hget
      · rwa [if_neg hown] at hget
    · refine get?_retire_of_ne (fun heq => ?_) hget
      rw [heq, hheld, hdead] at hlives
      cases hlives
    · have hsame : (r.retire n).slots.length = r.slots.length := by rw [hslots, hlength]
      exact Nat.le_of_eq hsame.symm

theorem sheds_drop (r : Roster) (n : InputId) : r.Sheds (r.drop n) :=
  (r.sheds_release n).trans ((r.release n).sheds_retire n)

/-! ## Taking a name away -/

theorem slots_unregister (r : Roster) (name : String) :
    (r.unregister name).slots = r.slots := by
  unfold unregister
  split <;> rfl

theorem get?_unregister (r : Roster) (name other : String) :
    Keyed.get? other (r.unregister name).entries =
      if other = name then none else Keyed.get? other r.entries := by
  unfold unregister Keyed.has
  by_cases hheld : (Keyed.get? name r.entries).isSome = true
  · rw [if_pos hheld]
    by_cases heq : other = name
    · rw [if_pos heq, heq]
      exact Keyed.get?_remove_self name r.entries
    · rw [if_neg heq]
      exact Keyed.get?_remove_of_ne heq r.entries
  · rw [if_neg hheld]
    by_cases heq : other = name
    · rw [if_pos heq, heq]
      simpa using hheld
    · rw [if_neg heq]

theorem ordered_unregister (hordered : Keyed.Ordered r.entries) (name : String) :
    Keyed.Ordered (r.unregister name).entries := by
  unfold unregister
  split
  · exact hordered.remove name
  · exact hordered

/-! ## What a render does to the roster -/

theorem entries_foldl_change (entries : List (String × InputId)) (f : Input → Input)
    (r : Roster) :
    (entries.foldl (fun r (_, n) => r.change n f) r).entries = r.entries := by
  induction entries generalizing r with
  | nil => rfl
  | cons entry rest ih => exact ih _

theorem alive_foldl_change (entries : List (String × InputId)) (f : Input → Input)
    (r : Roster) (m : InputId) :
    (entries.foldl (fun r (_, n) => r.change n f) r).alive m = r.alive m := by
  induction entries generalizing r with
  | nil => rfl
  | cons entry rest ih => exact (ih _).trans (r.alive_change entry.2 f m)

theorem length_foldl_change (entries : List (String × InputId)) (f : Input → Input)
    (r : Roster) :
    (entries.foldl (fun r (_, n) => r.change n f) r).slots.length = r.slots.length := by
  induction entries generalizing r with
  | nil => rfl
  | cons entry rest ih => exact (ih _).trans (List.length_modify ..)

section Renders

variable {α : Type} (render : Input → α × Input)

theorem alive_renderEach (r : Roster) (n : InputId) :
    (r.renderEach render).2.alive n = r.alive n :=
  alive_foldl_change r.liveEntries (fun i => (render i).2) r n

theorem entries_renderEach (r : Roster) : (r.renderEach render).2.entries = r.liveEntries := by
  unfold renderEach prune liveEntries
  simp only [entries_foldl_change, alive_foldl_change]

theorem keys_renderEach (r : Roster) :
    Keyed.keys (r.renderEach render).1 = Keyed.keys r.liveEntries := by
  have hlive : ∀ entry ∈ r.liveEntries, (r.input? entry.2).isSome = true := by
    intro entry hmem
    obtain ⟨slot, hslot, _⟩ := alive_iff.mp (List.mem_filter.mp hmem).2
    simp [input?, hslot]
  unfold renderEach
  simp only
  generalize r.liveEntries = entries at hlive ⊢
  induction entries with
  | nil => rfl
  | cons entry rest ih =>
    obtain ⟨input, hinput⟩ := Option.isSome_iff_exists.mp (hlive entry List.mem_cons_self)
    have hrest := ih fun other hmem => hlive other (List.mem_cons_of_mem _ hmem)
    simp only [Keyed.keys] at hrest ⊢
    simp [hinput, hrest]

/-- A render prunes no entry of an input that is alive. -/
theorem get?_renderEach {name : String} {n : InputId}
    (hget : Keyed.get? name r.entries = some n) (halive : r.alive n = true) :
    Keyed.get? name (r.renderEach render).2.entries = some n := by
  rw [entries_renderEach]
  exact Keyed.get?_filter hget halive

theorem sheds_renderEach (r : Roster) : r.Sheds (r.renderEach render).2 where
  ordered hordered := by
    rw [entries_renderEach]
    exact hordered.filter _
  kept hordered name n hget := by
    rw [entries_renderEach] at hget
    have hmem := (List.mem_filter.mp (Keyed.mem_of_get? hget)).1
    exact hordered.get?_eq_some_iff.mpr hmem
  living name n _ halive hget :=
    get?_renderEach render hget ((r.alive_renderEach render n).symm.trans halive)
  alive n _ halive := (r.alive_renderEach render n).symm.trans halive
  grown := Nat.le_of_eq (length_foldl_change _ _ r).symm

end Renders

/-! ## Listing an input -/

/-- The name and the input that are listed if the input is listed now. -/
def lists? (r : Roster) (n : InputId) : Option (String × InputId) :=
  match r.input? n, (r.register n).1 with
  | some input, .ok () => some (input.name, n)
  | _, _ => none

/-- The name and the input that are listed if the input lists itself: a
marked one does nothing. -/
def listsSelf? (r : Roster) (n : InputId) : Option (String × InputId) :=
  if (r.input? n).any Input.marked then none else r.lists? n

theorem lists?_of_listsSelf? {n : InputId} {entry : String × InputId}
    (hlists : r.listsSelf? n = some entry) : r.lists? n = some entry := by
  unfold listsSelf? at hlists
  split at hlists
  · cases hlists
  · exact hlists

/-- Listing an input fails and changes nothing, or it puts the entry. -/
theorem register_cases (r : Roster) (n : InputId) :
    (r.lists? n = none ∧ (r.register n).2 = r) ∨
      ∃ name, r.lists? n = some (name, n) ∧ (r.register n).1 = .ok () ∧
        n < r.slots.length ∧ (r.register n).2.slots = r.slots ∧
        (r.register n).2.entries = Keyed.put name n r.entries := by
  unfold lists? register
  cases hinput : r.input? n with
  | none => exact .inl ⟨rfl, rfl⟩
  | some input =>
    cases hexposed : r.exposed? input.name with
    | some other =>
      refine .inl ⟨?_, ?_⟩ <;> simp only [hexposed]
    | none =>
      refine .inr ⟨input.name, ?_, ?_, lt_of_input? hinput, ?_, ?_⟩ <;>
        simp only [hexposed] <;> rfl

/-- A name is free unless it is listed for an input that is alive. -/
theorem register_eq_ok_iff {n : InputId} {input : Input} (hinput : r.input? n = some input) :
    (r.register n).1 = .ok () ↔ r.exposed? input.name = none := by
  unfold register
  rw [hinput]
  cases hexposed : r.exposed? input.name <;> simp [hexposed]

/-- A name that is taken is no reason to change anything. -/
theorem register_of_error {n : InputId} {error : RosterError}
    (herror : (r.register n).1 = .error error) : (r.register n).2 = r := by
  obtain ⟨_, hsame⟩ | ⟨_, _, hok, _⟩ := r.register_cases n
  · exact hsame
  · cases hok.symm.trans herror

/-- An input that lists itself is listed as by somebody else, but for its
own mark. -/
theorem registerSelf_cases (r : Roster) (n : InputId) :
    (r.listsSelf? n = none ∧ (r.registerSelf n).2 = r) ∨
      (r.listsSelf? n = r.lists? n ∧
        (r.registerSelf n).1 = (r.register n).1.toOption.isSome ∧
        (r.registerSelf n).2 = (r.register n).2.change n fun input =>
          { input with marked := (r.register n).1.toOption.isSome }) := by
  unfold listsSelf? registerSelf
  cases hinput : r.input? n with
  | none => exact .inl ⟨by simp [lists?, hinput], rfl⟩
  | some input =>
    by_cases hmarked : input.marked = true
    · refine .inl ⟨?_, ?_⟩ <;> simp [hmarked]
    · refine .inr ⟨?_, ?_, ?_⟩
      · simp [hmarked]
      · simp only [hmarked]
        rfl
      · simp only [hmarked]
        rfl

end Roster

end MuxControl
