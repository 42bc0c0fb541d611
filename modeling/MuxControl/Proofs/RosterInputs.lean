/-
MuxControl.Proofs.RosterInputs — what the operations on a roster do to
the inputs themselves.

Few of them do anything. `Operation.effect` says what an operation makes
of an input that is there: an input that lists itself may get its mark,
and the listings of values and states clear the inputs that they show.
`Operation.created?` says which input it creates. `input?_perform` says
that nothing else happens to any input.

An input keeps its name and is listed under no other one
(`called_reached`); so it has one entry at most, and the listings show
it just if it has that (`Called.isShown_iff`).
-/
import MuxControl.Proofs.RosterHistory
import MuxControl.Proofs.RosterRenders

namespace MuxControl

namespace Roster

variable {r r' : Roster} {n : InputId} {i : Input}

/-! ## What leaves every input alone -/

theorem input?_of_slots (hslots : r'.slots = r.slots) (n : InputId) :
    r'.input? n = r.input? n := by
  simp [input?, hslots]

theorem input?_modify {m : InputId} {f : Slot → Slot} (hf : ∀ slot, (f slot).input = slot.input)
    (hslots : r'.slots = r.slots.modify m f) (n : InputId) : r'.input? n = r.input? n := by
  unfold input?
  rw [hslots, List.getElem?_modify]
  by_cases heq : m = n <;> simp [heq, Function.comp_def, hf]

theorem input?_hold (r : Roster) (m n : InputId) : (r.hold m).input? n = r.input? n := by
  apply input?_modify _ rfl
  intro slot
  rfl

theorem input?_release (r : Roster) (m n : InputId) : (r.release m).input? n = r.input? n := by
  apply input?_modify _ rfl
  intro slot
  rfl

theorem input?_retire (r : Roster) (m n : InputId) : (r.retire m).input? n = r.input? n := by
  have hretired : ∀ n, Roster.input?
      { r with slots := r.slots.modify m fun s => { s with retired := true } } n = r.input? n := by
    apply input?_modify _ rfl
    intro slot
    rfl
  unfold retire
  split
  · rfl
  · split
    · rfl
    · simp only
      split
      · rw [← hretired, input?_of_slots (slots_unregisterInput _ _ m)]
      · exact hretired n

theorem input?_drop (r : Roster) (m n : InputId) : (r.drop m).input? n = r.input? n := by
  unfold drop
  rw [input?_retire, input?_release]

theorem input?_unregister (r : Roster) (name : String) (n : InputId) :
    (r.unregister name).input? n = r.input? n :=
  input?_of_slots (slots_unregister r name) n

theorem input?_register (r : Roster) (m n : InputId) : (r.register m).2.input? n = r.input? n := by
  obtain ⟨_, hsame⟩ | ⟨_, _, _, _, hslots, _⟩ := r.register_cases m
  · rw [hsame]
  · exact input?_of_slots hslots n

/-! ## What changes an input -/

theorem input?_change (r : Roster) (m : InputId) (f : Input → Input) (n : InputId) :
    (r.change m f).input? n = if m = n then (r.input? n).map f else r.input? n := by
  unfold change input?
  rw [List.getElem?_modify]
  by_cases heq : m = n <;> simp [heq, Function.comp_def]

theorem input?_create (r : Roster) (name : String) (now : Instant) (n : InputId) :
    (r.create name now).2.input? n =
      if n = r.slots.length then some (.create name r.limits now) else r.input? n := by
  unfold create input?
  simp only
  split
  · next heq => simp [heq]
  · next hne =>
    rcases Nat.lt_or_gt_of_ne hne with hlt | hgt
    · rw [List.getElem?_append_left hlt]
    · rw [List.getElem?_eq_none (Nat.le_of_lt hgt), List.getElem?_eq_none]
      rw [List.length_append]
      exact hgt

/-- An input that lists itself has the answer for its mark. -/
theorem input?_registerSelf (r : Roster) (m n : InputId) :
    (r.registerSelf m).2.input? n =
      if m = n then (r.input? n).map fun i => { i with marked := (r.registerSelf n).1 }
      else r.input? n := by
  unfold registerSelf
  cases hinput : r.input? m with
  | none =>
    by_cases heq : m = n
    · subst heq
      simp [hinput]
    · simp [heq]
  | some input =>
    cases hmarked : input.marked with
    | true =>
      by_cases heq : m = n
      · subst heq
        simp only [hinput, hmarked, if_true, Option.map_some]
        rw [← hmarked]
      · simp [heq, hmarked]
    | false =>
      simp only [hmarked, Bool.false_eq_true, if_false, input?_change, input?_register]
      by_cases heq : m = n
      · subst heq
        simp [hinput, hmarked]
      · simp [heq]

theorem Rendered.input? {f : Input → Input} (hrendered : r.Rendered f r') (n : InputId) :
    r'.input? n = (r.input? n).map fun i => if r.IsShown n then f i else i := by
  unfold Roster.input?
  rw [hrendered.slots, Option.map_map, Option.map_map]
  congr 1
  funext slot
  by_cases hshown : r.IsShown n <;> simp [hshown]

/-! ## Every operation -/

/-- What an operation makes of an input that is there. -/
def Operation.effect (r : Roster) (n : InputId) : Operation → Input → Input
  | .registerSelf m => fun i =>
    if m = n ∧ r.alive n then { i with marked := (r.registerSelf n).1 } else i
  | .renderValues => fun i => if r.IsShown n then Listing.values.clears 0 i else i
  | .renderState now => fun i => if r.IsShown n then Listing.states.clears now i else i
  | _ => id

/-- The input that an operation creates under a number. -/
def Operation.created? (r : Roster) (n : InputId) : Operation → Option Input
  | .create name now => if n = r.slots.length then some (.create name r.limits now) else none
  | .enroll name now =>
    if n = r.slots.length then
      some { Input.create name r.limits now with marked := (r.enroll name now).1 }
    else none
  | _ => none

theorem input?_length (r : Roster) : r.input? r.slots.length = none := by
  simp [input?]

theorem input?_enroll (r : Roster) (name : String) (now : Instant) (n : InputId) :
    (r.enroll name now).2.2.input? n =
      if n = r.slots.length then
        some { Input.create name r.limits now with marked := (r.enroll name now).1 }
      else r.input? n := by
  show ((r.create name now).2.registerSelf r.slots.length).2.input? n = _
  rw [input?_registerSelf, input?_create]
  by_cases heq : n = r.slots.length
  · subst heq
    simp only [if_true, Option.map_some]
    rfl
  · simp [heq, Ne.symm heq]

theorem input?_listing (r : Roster) (now : Instant) (listing : Listing) (n : InputId) :
    (listing.render now r).2.input? n =
      (r.input? n).map fun i => if r.IsShown n then listing.clears now i else i :=
  (listing.render_spec now r).2.input? n

/-- **What happens to the inputs in an operation.** -/
theorem input?_perform (r : Roster) (operation : Operation) (n : InputId) :
    (r.perform operation).input? n =
      ((r.input? n).map (operation.effect r n)).or (operation.created? r n) := by
  -- Most operations leave every input alone, if they are carried out at all.
  have haside : ∀ r' : Roster, r'.input? n = r.input? n →
      r'.input? n = ((r.input? n).map id).or none := by
    intro r' hsame
    simp [hsame]
  have hguarded : ∀ (m : InputId) (r' : Roster), r'.input? n = r.input? n →
      (if r.alive m then r' else r).input? n = ((r.input? n).map id).or none := by
    intro m r' hsame
    split
    · exact haside r' hsame
    · exact haside r rfl
  cases operation with
  | create name now =>
    simp only [perform, Operation.effect, Operation.created?, input?_create]
    by_cases heq : n = r.slots.length
    · simp [heq, input?_length]
    · simp [heq]
  | enroll name now =>
    simp only [perform, Operation.effect, Operation.created?, input?_enroll]
    by_cases heq : n = r.slots.length
    · simp [heq, input?_length]
    · simp [heq]
  | registerSelf m =>
    simp only [perform, Operation.effect, Operation.created?]
    by_cases heq : m = n
    · subst heq
      by_cases halive : r.alive m = true <;> simp [halive, input?_registerSelf]
    · by_cases halive : r.alive m = true <;> simp [halive, input?_registerSelf, heq]
  | register m => exact hguarded m _ (r.input?_register m n)
  | unregister name => exact haside _ (r.input?_unregister name n)
  | hold m => exact hguarded m _ (r.input?_hold m n)
  | release m => exact haside _ (r.input?_release m n)
  | retire m => exact haside _ (r.input?_retire m n)
  | drop m => exact haside _ (r.input?_drop m n)
  | ids => exact haside _ ((r.input?_listing 0 .names n).trans (by simp [Listing.clears]))
  | renderConfig =>
    exact haside _ ((r.input?_listing 0 .names n).trans (by simp [Listing.clears]))
  | renderValues => exact (r.input?_listing 0 .values n).trans Option.or_none.symm
  | renderState now => exact (r.input?_listing now .states n).trans Option.or_none.symm

/-! ## Names -/

/-- The name of an input. -/
def name? (r : Roster) (n : InputId) : Option String := (r.input? n).map Input.name

theorem name_effect (r : Roster) (n : InputId) (operation : Operation) (i : Input) :
    (operation.effect r n i).name = i.name := by
  cases operation with
  | registerSelf m => simp only [Operation.effect]; split <;> rfl
  | renderValues => simp only [Operation.effect]; split <;> rfl
  | renderState now => simp only [Operation.effect]; split <;> rfl
  | _ => rfl

/-- An input keeps its name. -/
theorem name?_perform {name : String} (hname : r.name? n = some name) (operation : Operation) :
    (r.perform operation).name? n = some name := by
  obtain ⟨input, hinput, rfl⟩ := Option.map_eq_some_iff.mp hname
  rw [name?, input?_perform, hinput]
  simp [name_effect]

/-- An input is listed under its own name. -/
theorem name?_of_lists? {entry : String × InputId} (hlists : r.lists? n = some entry) :
    entry.2 = n ∧ r.name? n = some entry.1 := by
  unfold lists? at hlists
  split at hlists
  · next input hinput _ =>
    obtain rfl := Option.some.inj hlists
    simp [name?, hinput]
  · cases hlists

theorem name?_of_listing? {operation : Operation} {name : String}
    (hlists : r.listing? operation = some (name, n)) :
    (r.perform operation).name? n = some name := by
  cases operation with
  | enroll other now =>
    obtain ⟨hsame, hname⟩ := name?_of_lists? (lists?_of_listsSelf? hlists)
    obtain rfl : n = (r.create other now).1 := hsame
    obtain ⟨input, hinput, rfl⟩ := Option.map_eq_some_iff.mp hname
    show (((r.create other now).2.registerSelf (r.create other now).1).2.name? _) = _
    simp [name?, input?_registerSelf, hinput]
  | registerSelf m =>
    obtain ⟨_, hself⟩ := Option.ite_none_right_eq_some.mp hlists
    obtain ⟨rfl, hname⟩ := name?_of_lists? (lists?_of_listsSelf? hself)
    exact name?_perform hname _
  | register m =>
    obtain ⟨_, hother⟩ := Option.ite_none_right_eq_some.mp hlists
    obtain ⟨rfl, hname⟩ := name?_of_lists? hother
    exact name?_perform hname _
  | _ => cases hlists

/-- Every holder of a name is called by it. -/
def Called (r : Roster) (holder : String → Option InputId) : Prop :=
  ∀ name n, holder name = some n → r.name? n = some name

variable {holder : String → Option InputId}

theorem Called.perform (hcalled : r.Called holder) (operation : Operation) :
    (r.perform operation).Called (r.holderAfter holder operation) := by
  intro name n hholder
  -- A name that is not listed anew keeps its holder, and that its name.
  have hrelisted : relisted holder (r.listing? operation) name = some n →
      (r.perform operation).name? n = some name := by
    intro hrelisted
    cases hlists : r.listing? operation with
    | none =>
      rw [hlists] at hrelisted
      exact name?_perform (hcalled name n hrelisted) operation
    | some entry =>
      obtain ⟨other, m⟩ := entry
      simp only [hlists, relisted] at hrelisted
      split at hrelisted
      · next heq =>
        obtain rfl := Option.some.inj hrelisted
        rw [heq]
        exact name?_of_listing? hlists
      · exact name?_perform (hcalled name n hrelisted) operation
  cases operation with
  | unregister other =>
    obtain ⟨_, hbefore⟩ := Option.ite_none_left_eq_some.mp hholder
    exact name?_perform (hcalled name n hbefore) _
  | _ => exact hrelisted hholder

theorem called_reached (limits : Thresholds) (history : History) :
    (reached limits history).Called (holder? limits history) := by
  induction history with
  | nil =>
    intro name n hnone
    cases hnone
  | cons operation earlier ih => exact ih.perform operation

/-- An entry is that of an input of the same name. -/
theorem Called.name?_of_entry (hcalled : r.Called holder) (hkeeps : r.Keeps holder)
    {name : String} (hget : Keyed.get? name r.entries = some n) : r.name? n = some name :=
  hcalled name n (hkeeps.held name n hget)

/-- **The one entry of an input.** The listings show an input that is
alive just if the entry of its name is its own. -/
theorem Called.isShown_iff (hcalled : r.Called holder) (hkeeps : r.Keeps holder) {name : String}
    (hname : r.name? n = some name) (halive : r.alive n = true) :
    r.IsShown n ↔ Keyed.get? name r.entries = some n := by
  constructor
  · intro hshown
    obtain ⟨⟨other, m⟩, hentry, rfl⟩ := List.mem_map.mp hshown
    have hget := hkeeps.ordered.get?_eq_some_iff.mpr (List.mem_filter.mp hentry).1
    obtain rfl := Option.some.inj (hname.symm.trans (hcalled.name?_of_entry hkeeps hget))
    exact hget
  · intro hget
    have hentry : (name, n) ∈ r.liveEntries :=
      List.mem_filter.mpr ⟨Keyed.mem_of_get? hget, halive⟩
    exact List.mem_map_of_mem hentry

end Roster

end MuxControl
