/-
MuxControl.Proofs.LateRetirement — an input that ends late takes away no
entry but its own, and leaves none behind.

An input is dead once nobody holds it; what it does last, `retire`, may
come any time later. In between its name may be given to another input,
and a render may prune its entry. As long as inputs list only themselves,
a roster is `Owned`: each entry is that of an input of its name which is
marked and has not done what it does last. Most operations leave names,
marks and ends as they are, so each slot `Lasts`; listing itself and
retiring are the ones to look at.

`holder?_stays` follows the name of an input that lives on, and
`late_retirement` says what comes of any order of all this.
-/
import MuxControl.Proofs.RosterHistory
import MuxControl.Proofs.RosterRenders

namespace MuxControl

/-- A slot later on: its input has kept its name and its mark if it had
one, it has retired just if it had, and what was dead is dead. -/
structure Slot.Lasts (s s' : Slot) : Prop where
  name : s'.input.name = s.input.name
  marked : s.input.marked = true → s'.input.marked = true
  retired : s'.retired = s.retired
  dead : s.alive = false → s'.alive = false

theorem Slot.Lasts.refl (s : Slot) : s.Lasts s := ⟨rfl, id, rfl, id⟩

namespace Roster

/-- Every slot lasts, and no new one has retired. -/
structure Lasts (r r' : Roster) : Prop where
  slots : ∀ (n : InputId) (slot : Slot), r.slots[n]? = some slot →
    ∃ slot' : Slot, r'.slots[n]? = some slot' ∧ slot.Lasts slot'
  known : ∀ (n : InputId) (slot : Slot), r'.slots[n]? = some slot → slot.retired = true →
    n < r.slots.length

/-- Each entry is that of an input of its name which is marked and has not
retired, and what has retired is dead. -/
structure Owned (r : Roster) : Prop where
  owned : ∀ name n, Keyed.get? name r.entries = some n → ∃ slot : Slot,
    r.slots[n]? = some slot ∧ slot.input.name = name ∧ slot.input.marked = true ∧
      slot.retired = false
  ended : ∀ (n : InputId) (slot : Slot), r.slots[n]? = some slot → slot.retired = true →
    slot.alive = false

/-- Whoever has retired is dead. -/
def Sealed (r : Roster) : Prop :=
  ∀ (n : InputId) (slot : Slot), r.slots[n]? = some slot → slot.retired = true →
    slot.alive = false

variable {r r' : Roster}

/-! ## What leaves names, marks and ends alone -/

theorem Sealed.lasts (hsealed : r.Sealed) (hlasts : r.Lasts r') : r'.Sealed := by
  intro n slot' hslot' hretired
  have hbefore := List.getElem?_eq_getElem (hlasts.known n slot' hslot' hretired)
  obtain ⟨_, hafter, hsame⟩ := hlasts.slots n _ hbefore
  obtain rfl := Option.some.inj (hslot'.symm.trans hafter)
  exact hsame.dead (hsealed n _ hbefore (hsame.retired.symm.trans hretired))

theorem Owned.lasts (howned : r.Owned) (hlasts : r.Lasts r')
    (hkept : ∀ name n, Keyed.get? name r'.entries = some n → Keyed.get? name r.entries = some n) :
    r'.Owned where
  owned name n hget := by
    obtain ⟨slot, hslot, hname, hmarked, hretired⟩ := howned.owned name n (hkept name n hget)
    obtain ⟨slot', hslot', hsame⟩ := hlasts.slots n slot hslot
    exact ⟨slot', hslot', hsame.name.trans hname, hsame.marked hmarked,
      hsame.retired.trans hretired⟩
  ended := Sealed.lasts howned.ended hlasts

theorem lasts_of_slots (hslots : r'.slots = r.slots) : r.Lasts r' where
  slots n slot hslot := ⟨slot, by rw [hslots, hslot], .refl slot⟩
  known n slot hslot _ := (List.getElem?_eq_some_iff.mp (hslots ▸ hslot)).1

theorem lasts_modify {n : InputId} {f : Slot → Slot} (hslots : r'.slots = r.slots.modify n f)
    (hf : ∀ slot, r.slots[n]? = some slot → slot.Lasts (f slot)) : r.Lasts r' where
  slots m slot hslot := by
    by_cases heq : n = m
    · subst heq
      exact ⟨f slot, by simp [hslots, hslot], hf slot hslot⟩
    · exact ⟨slot, by simp [hslots, heq, hslot], .refl slot⟩
  known m slot hslot _ := by
    have hlt := (List.getElem?_eq_some_iff.mp hslot).1
    rwa [hslots, List.length_modify] at hlt

theorem lasts_create (r : Roster) (name : String) (now : Instant) :
    r.Lasts (r.create name now).2 where
  slots n slot hslot := by
    have hlt := (List.getElem?_eq_some_iff.mp hslot).1
    exact ⟨slot, (List.getElem?_append_left hlt).trans hslot, .refl slot⟩
  known n slot hslot hretired := by
    unfold create at hslot
    rcases Nat.lt_or_ge n r.slots.length with hlt | hge
    · exact hlt
    · -- The new slot is the only other one.
      rw [List.getElem?_append_right hge] at hslot
      obtain rfl := List.mem_singleton.mp (List.mem_of_getElem? hslot)
      cases hretired

theorem lasts_hold {n : InputId} (halive : r.alive n = true) : r.Lasts (r.hold n) := by
  refine lasts_modify rfl fun slot hslot => ⟨rfl, id, rfl, fun hdead => ?_⟩
  obtain ⟨_, hsame, hheld⟩ := alive_iff.mp halive
  obtain rfl := Option.some.inj (hslot.symm.trans hsame)
  cases hheld.symm.trans hdead

theorem lasts_release (r : Roster) (n : InputId) : r.Lasts (r.release n) := by
  refine lasts_modify rfl fun slot _ => ⟨rfl, id, rfl, fun hdead => ?_⟩
  simp only [Slot.alive, decide_eq_false_iff_not, Nat.not_lt, Nat.le_zero] at hdead ⊢
  rw [hdead]

theorem lasts_rendered {f : Input → Input} (hrendered : r.Rendered f r')
    (hf : ∀ i, (f i).name = i.name ∧ (f i).marked = i.marked) : r.Lasts r' where
  slots n slot hslot := by
    refine ⟨_, by rw [hrendered.slots, hslot]; rfl, ?_⟩
    split
    · exact ⟨(hf slot.input).1, (hf slot.input).2.trans, rfl, id⟩
    · exact .refl slot
  known n slot hslot _ := by
    rw [hrendered.slots] at hslot
    obtain ⟨_, hbefore, _⟩ := Option.map_eq_some_iff.mp hslot
    exact (List.getElem?_eq_some_iff.mp hbefore).1

theorem lasts_render (now : Instant) (r : Roster) (listing : Listing) :
    r.Lasts (listing.render now r).2 := by
  refine lasts_rendered (Listing.render_spec now r listing).2 fun i => ?_
  cases listing <;> exact ⟨rfl, rfl⟩

/-! ## Listing itself, and retiring -/

/-- An input that lists itself changes nothing, or it was not marked; then
it is marked just if its name was free, and has its entry. -/
theorem registerSelf_outcomes (r : Roster) (n : InputId) :
    (r.registerSelf n).2 = r ∨ ∃ input, r.input? n = some input ∧ input.marked = false ∧
      (r.registerSelf n).2.slots =
        (r.change n fun i => { i with marked := (r.exposed? input.name).isNone }).slots ∧
      (r.registerSelf n).2.entries =
        if (r.exposed? input.name).isNone then Keyed.put input.name n r.entries
        else r.entries := by
  unfold registerSelf
  cases hinput : r.input? n with
  | none => exact .inl rfl
  | some input =>
    cases hmarked : input.marked with
    | true => exact .inl (by simp [hmarked])
    | false =>
      refine .inr ⟨input, rfl, hmarked, ?_⟩
      cases hexposed : r.exposed? input.name <;>
        simp [hmarked, register, hinput, hexposed, change, measure, Except.toOption]

/-- Writing a mark over none loses none. -/
theorem lasts_mark {n : InputId} {input : Input} (hinput : r.input? n = some input)
    (hunmarked : input.marked = false) (marked : Bool) :
    r.Lasts (r.change n fun i => { i with marked := marked }) := by
  obtain ⟨slot, hslot, rfl⟩ := Option.map_eq_some_iff.mp hinput
  refine lasts_modify rfl fun slot' hslot' => ⟨rfl, fun hmarked => ?_, rfl, id⟩
  obtain rfl := Option.some.inj (hslot.symm.trans hslot')
  cases hunmarked.symm.trans hmarked

/-- An entry for an input of its name which is marked and has not
retired. -/
theorem Owned.put (howned : r.Owned) {n : InputId} {slot : Slot} (hslot : r.slots[n]? = some slot)
    (hmarked : slot.input.marked = true) (hretired : slot.retired = false)
    (hslots : r'.slots = r.slots)
    (hentries : r'.entries = Keyed.put slot.input.name n r.entries) : r'.Owned where
  owned name m hget := by
    rw [hentries] at hget
    rw [hslots]
    by_cases hname : name = slot.input.name
    · rw [hname, Keyed.get?_put_self] at hget
      obtain rfl := Option.some.inj hget
      exact ⟨slot, hslot, hname.symm, hmarked, hretired⟩
    · rw [Keyed.get?_put_of_ne hname] at hget
      exact howned.owned name m hget
  ended := by
    rw [hslots]
    exact howned.ended

theorem Owned.registerSelf (howned : r.Owned) {n : InputId} (halive : r.alive n = true) :
    (r.registerSelf n).2.Owned := by
  obtain hsame | ⟨input, hinput, hunmarked, hslots, hentries⟩ := r.registerSelf_outcomes n
  · rw [hsame]
    exact howned
  · let marked := r.change n fun i => { i with marked := (r.exposed? input.name).isNone }
    have hmarked : marked.Owned :=
      howned.lasts (lasts_mark hinput hunmarked _) fun _ _ hget => hget
    cases hfree : (r.exposed? input.name).isNone with
    | false =>
      rw [hfree] at hentries
      refine hmarked.lasts (lasts_of_slots hslots) fun name m hget => ?_
      rwa [hentries] at hget
    | true =>
      obtain ⟨slot, hslot, rfl⟩ := Option.map_eq_some_iff.mp hinput
      obtain ⟨_, hfound, hheld⟩ := alive_iff.mp halive
      obtain rfl := Option.some.inj (hslot.symm.trans hfound)
      have hretired : slot.retired = false := by
        cases hretired : slot.retired with
        | false => rfl
        | true => cases hheld.symm.trans (howned.ended n slot hslot hretired)
      rw [hfree] at hentries
      have hafter : marked.slots[n]? = some
          { slot with input := { slot.input with marked := true } } := by
        simp [marked, change, hslot, hfree]
      exact hmarked.put hafter rfl hretired hslots hentries

/-- A dead input that retires is marked as retired, and its own entry is
gone if it was marked as listed. -/
theorem retire_of_dead {n : InputId} {slot : Slot} (hslot : r.slots[n]? = some slot)
    (hdead : slot.alive = false) (hretired : slot.retired = false) :
    (r.retire n).slots = r.slots.modify n (fun s => { s with retired := true }) ∧
      (r.retire n).entries =
        if slot.input.marked = true ∧ Keyed.get? slot.input.name r.entries = some n then
          Keyed.remove slot.input.name r.entries
        else r.entries := by
  unfold retire
  simp only [hslot, hdead, hretired, Bool.or_self, Bool.false_eq_true, if_false]
  cases slot.input.marked with
  | false => simp
  | true =>
    simp only [if_true, true_and]
    exact ⟨slots_unregisterInput _ _ n, entries_unregisterInput _ _ n⟩

theorem Sealed.retire (hsealed : r.Sealed) (n : InputId) : (r.retire n).Sealed := by
  cases hslot : r.slots[n]? with
  | none => simpa [Roster.retire, hslot] using hsealed
  | some slot =>
    by_cases hdone : (slot.alive || slot.retired) = true
    · simpa [Roster.retire, hslot, hdone] using hsealed
    · obtain ⟨hdead, hretired⟩ := Bool.or_eq_false_iff.mp (Bool.eq_false_iff.mpr hdone)
      obtain ⟨hslots, _⟩ := retire_of_dead hslot hdead hretired
      intro m slot' hslot' hretired'
      rw [hslots, List.getElem?_modify] at hslot'
      obtain ⟨before, hbefore, rfl⟩ := Option.map_eq_some_iff.mp hslot'
      by_cases hown : n = m
      · subst hown
        obtain rfl := Option.some.inj (hslot.symm.trans hbefore)
        rw [if_pos rfl]
        exact hdead
      · rw [if_neg hown] at hretired' ⊢
        exact hsealed m before hbefore hretired'

theorem Owned.retire (howned : r.Owned) (n : InputId) : (r.retire n).Owned := by
  cases hslot : r.slots[n]? with
  | none => simpa [Roster.retire, hslot] using howned
  | some slot =>
    by_cases hdone : (slot.alive || slot.retired) = true
    · simpa [Roster.retire, hslot, hdone] using howned
    · obtain ⟨hdead, hretired⟩ := Bool.or_eq_false_iff.mp (Bool.eq_false_iff.mpr hdone)
      obtain ⟨hslots, hentries⟩ := retire_of_dead hslot hdead hretired
      refine ⟨fun name m hget => ?_, Sealed.retire howned.ended n⟩
      have hbefore : Keyed.get? name r.entries = some m := by
        rw [hentries] at hget
        split at hget
        · by_cases hname : name = slot.input.name
          · rw [hname, Keyed.get?_remove_self] at hget
            cases hget
          · rwa [Keyed.get?_remove_of_ne hname] at hget
        · exact hget
      obtain ⟨found, hfound, hname, hmarked, hlasts⟩ := howned.owned name m hbefore
      have hother : n ≠ m := by
        -- Its own entry would have been taken away.
        rintro rfl
        obtain rfl := Option.some.inj (hslot.symm.trans hfound)
        rw [hentries, hname, if_pos ⟨hmarked, hbefore⟩, Keyed.get?_remove_self] at hget
        cases hget
      refine ⟨found, ?_, hname, hmarked, hlasts⟩
      simp [hslots, hother, hfound]

/-! ## Histories -/

/-- Whatever is done but listing an input behind its back. -/
theorem Owned.perform (howned : r.Owned) (hordered : Keyed.Ordered r.entries)
    {operation : Operation} (hself : ∀ n, operation ≠ .register n) :
    (r.perform operation).Owned := by
  have hsheds : r.Lasts (r.perform operation) → r.Sheds (r.perform operation) →
      (r.perform operation).Owned :=
    fun hlasts hsheds => howned.lasts hlasts (hsheds.kept hordered)
  cases operation with
  | create name now => exact hsheds (r.lasts_create name now) (r.sheds_create name now)
  | enroll name now =>
    have hcreated : (r.create name now).2.Owned :=
      howned.lasts (r.lasts_create name now) fun _ _ hget => hget
    refine hcreated.registerSelf (alive_iff.mpr ⟨_, List.getElem?_concat_length, rfl⟩)
  | registerSelf n =>
    simp only [Roster.perform]
    by_cases halive : r.alive n = true
    · simpa only [halive, if_true] using howned.registerSelf halive
    · simp only [halive]
      exact howned
  | register n => exact absurd rfl (hself n)
  | unregister name =>
    refine howned.lasts (lasts_of_slots (slots_unregister r name)) fun other n hget => ?_
    simp only [Roster.perform, get?_unregister] at hget
    exact (Option.ite_none_left_eq_some.mp hget).2
  | hold n =>
    simp only [Roster.perform]
    by_cases halive : r.alive n = true
    · simp only [halive, if_true]
      exact howned.lasts (lasts_hold halive) ((sheds_hold halive).kept hordered)
    · simp only [halive]
      exact howned
  | release n => exact hsheds (r.lasts_release n) (r.sheds_release n)
  | retire n => exact howned.retire n
  | drop n => exact (howned.lasts (r.lasts_release n) fun _ _ hget => hget).retire n
  | ids => exact hsheds (r.lasts_render 0 .names) (sheds_renderEach _ r)
  | renderConfig => exact hsheds (r.lasts_render 0 .names) (sheds_renderEach _ r)
  | renderValues => exact hsheds (r.lasts_render 0 .values) (sheds_renderEach _ r)
  | renderState now => exact hsheds (r.lasts_render now .states) (sheds_renderEach _ r)

theorem owned_reached (limits : Thresholds) {history : History}
    (hself : ∀ n, .register n ∉ history) : (reached limits history).Owned := by
  induction history with
  | nil => exact ⟨fun _ _ hnone => (by cases hnone), fun _ _ hnone => (by cases hnone)⟩
  | cons operation earlier ih =>
    have hearlier := ih fun n hmem => hself n (List.mem_cons_of_mem _ hmem)
    refine hearlier.perform (keeps_reached limits earlier).ordered fun n heq => ?_
    exact hself n (heq ▸ List.mem_cons_self)

/-! ## Names and lives along a history -/

/-- No input goes missing or comes back to life. -/
structure Ages (r r' : Roster) : Prop where
  grown : r.slots.length ≤ r'.slots.length
  alive : ∀ n, n < r.slots.length → r'.alive n = true → r.alive n = true

theorem Sheds.ages (hsheds : r.Sheds r') : r.Ages r' := ⟨hsheds.grown, hsheds.alive⟩

theorem ages_of_slots (hslots : r'.slots = r.slots) : r.Ages r' where
  grown := Nat.le_of_eq (congrArg List.length hslots.symm)
  alive n _ halive := by rwa [Roster.alive, hslots] at halive

theorem Ages.trans {r'' : Roster} (hfirst : r.Ages r') (hsecond : r'.Ages r'') : r.Ages r'' where
  grown := Nat.le_trans hfirst.grown hsecond.grown
  alive n hknown halive := by
    have hlater := Nat.lt_of_lt_of_le hknown hfirst.grown
    exact hfirst.alive n hknown (hsecond.alive n hlater halive)

theorem ages_register (r : Roster) (n : InputId) : r.Ages (r.register n).2 := by
  obtain ⟨_, hsame⟩ | ⟨_, _, _, _, hslots, _⟩ := r.register_cases n
  · exact ages_of_slots (congrArg slots hsame)
  · exact ages_of_slots hslots

theorem ages_registerSelf (r : Roster) (n : InputId) : r.Ages (r.registerSelf n).2 := by
  obtain ⟨_, hsame⟩ | ⟨_, _, hchange⟩ := r.registerSelf_cases n
  · exact ages_of_slots (congrArg slots hsame)
  · rw [hchange]
    exact (r.ages_register n).trans (sheds_change _ n _).ages

theorem ages_perform (r : Roster) (operation : Operation) : r.Ages (r.perform operation) := by
  have hguarded : ∀ (n : InputId) (r' : Roster), (r.alive n = true → r.Ages r') →
      r.Ages (if r.alive n then r' else r) := by
    intro n r' hages
    split
    · next halive => exact hages halive
    · exact ages_of_slots rfl
  cases operation with
  | create name now => exact (r.sheds_create name now).ages
  | enroll name now => exact (r.sheds_create name now).ages.trans (ages_registerSelf _ _)
  | registerSelf n => exact hguarded n _ fun _ => r.ages_registerSelf n
  | register n => exact hguarded n _ fun _ => r.ages_register n
  | unregister name => exact ages_of_slots (slots_unregister r name)
  | hold n => exact hguarded n _ fun halive => (sheds_hold halive).ages
  | release n => exact (r.sheds_release n).ages
  | retire n => exact (r.sheds_retire n).ages
  | drop n => exact (r.sheds_drop n).ages
  | ids => exact (sheds_renderEach _ r).ages
  | renderConfig => exact (sheds_renderEach _ r).ages
  | renderValues => exact (sheds_renderEach _ r).ages
  | renderState now => exact (sheds_renderEach _ r).ages

theorem ages_reached (limits : Thresholds) (later earlier : History) :
    (reached limits earlier).Ages (reached limits (later ++ earlier)) := by
  induction later with
  | nil => exact ages_of_slots rfl
  | cons operation later ih => exact ih.trans (ages_perform _ operation)

theorem exposed?_of_lists? {name : String} {n m : InputId} (hlists : r.lists? n = some (name, m)) :
    r.exposed? name = none := by
  unfold lists? at hlists
  split at hlists
  · next input hinput hok =>
      obtain ⟨rfl, _⟩ := Prod.mk.inj (Option.some.inj hlists)
      exact (register_eq_ok_iff hinput).mp hok
  · cases hlists

theorem exposed?_create {name : String} {n : InputId} (hexposed : r.exposed? name = some n)
    (other : String) (now : Instant) : (r.create other now).2.exposed? name = some n := by
  obtain ⟨hget, halive⟩ := exposed?_eq_some_iff.mp hexposed
  obtain ⟨slot, hslot, hheld⟩ := alive_iff.mp halive
  have hknown := (List.getElem?_eq_some_iff.mp hslot).1
  have hafter : (r.create other now).2.slots[n]? = some slot :=
    (List.getElem?_append_left hknown).trans hslot
  exact exposed?_eq_some_iff.mpr ⟨hget, alive_iff.mpr ⟨slot, hafter, hheld⟩⟩

/-- A name that an operation gives to an input is free before. -/
theorem exposed?_of_listing? {operation : Operation} {name : String} {n : InputId}
    (hlists : r.listing? operation = some (name, n)) : r.exposed? name = none := by
  cases operation with
  | enroll other now =>
    have hfree := exposed?_of_lists? (lists?_of_listsSelf? hlists)
    refine Option.eq_none_iff_forall_ne_some.mpr fun m hexposed => ?_
    cases hfree.symm.trans (exposed?_create hexposed other now)
  | registerSelf m =>
    obtain ⟨_, hlists⟩ := Option.ite_none_right_eq_some.mp hlists
    exact exposed?_of_lists? (lists?_of_listsSelf? hlists)
  | register m =>
    obtain ⟨_, hlists⟩ := Option.ite_none_right_eq_some.mp hlists
    exact exposed?_of_lists? hlists
  | _ => cases hlists

/-- An exposed holder keeps its name unless that is taken away. -/
theorem holderAfter_of_exposed {holder : String → Option InputId} {name : String} {n : InputId}
    (hholder : holder name = some n) (hexposed : r.exposed? name = some n)
    {operation : Operation} (hkept : operation ≠ .unregister name) :
    r.holderAfter holder operation name = some n := by
  have hrelisted : relisted holder (r.listing? operation) name = some n := by
    cases hlists : r.listing? operation with
    | none => exact hholder
    | some entry =>
      obtain ⟨other, m⟩ := entry
      have hne : name ≠ other := by
        rintro rfl
        cases hexposed.symm.trans (exposed?_of_listing? hlists)
      simp only [relisted, hne, if_false, hholder]
  cases operation with
  | unregister other =>
    have hne : name ≠ other := fun heq => hkept (heq ▸ rfl)
    simp only [holderAfter, hne, if_false, hholder]
  | _ => exact hrelisted

/-- An input that lives on keeps its name until that is taken away. -/
theorem holder?_stays (limits : Thresholds) {later earlier : History} {name : String}
    {n : InputId} (hholder : holder? limits earlier name = some n)
    (hkept : .unregister name ∉ later)
    (halive : (reached limits (later ++ earlier)).alive n = true) :
    holder? limits (later ++ earlier) name = some n := by
  induction later with
  | nil => exact hholder
  | cons operation later ih =>
    have hknown : n < (reached limits (later ++ earlier)).slots.length :=
      Nat.lt_of_lt_of_le ((keeps_reached limits earlier).known name n hholder)
        (ages_reached limits later earlier).grown
    have hbefore : (reached limits (later ++ earlier)).alive n = true :=
      (ages_perform _ operation).alive n hknown halive
    have hholds := ih (fun hmem => hkept (List.mem_cons_of_mem _ hmem)) hbefore
    have hexposed := (keeps_reached limits (later ++ earlier)).exposed?_iff.mpr ⟨hholds, hbefore⟩
    exact holderAfter_of_exposed hholds hexposed fun heq => hkept (heq ▸ List.mem_cons_self)

theorem Owned.name_of_exposed? (howned : r.Owned) {name : String} {n : InputId} {input : Input}
    (hexposed : r.exposed? name = some n) (hinput : r.input? n = some input) :
    input.name = name := by
  obtain ⟨slot, hslot, hname, _⟩ := howned.owned name n (exposed?_eq_some_iff.mp hexposed).1
  obtain ⟨_, hfound, rfl⟩ := Option.map_eq_some_iff.mp hinput
  obtain rfl := Option.some.inj (hslot.symm.trans hfound)
  exact hname

/-- **Ending late is harmless.** Inputs are created, list themselves, are
let go of and retire later, names are taken away, and listings are
rendered, in any order. Then what an input does last takes away no entry
of another one; an input that was listed is exposed under its name as long
as it lives and the name is not taken away; at most one input of a name is
exposed; and once every dead input has retired, each entry is that of an
input that is alive. -/
theorem late_retirement (limits : Thresholds) (history : History)
    (hself : ∀ n, .register n ∉ history) :
    let r := reached limits history
    (∀ n m name, m ≠ n → Keyed.get? name r.entries = some m →
      Keyed.get? name (r.retire n).entries = some m) ∧
    (∀ later operation earlier name n, history = later ++ operation :: earlier →
      (reached limits earlier).listing? operation = some (name, n) →
      .unregister name ∉ later → r.alive n = true → r.exposed? name = some n) ∧
    (∀ name other n m i j, r.exposed? name = some n → r.exposed? other = some m →
      r.input? n = some i → r.input? m = some j → i.name = j.name → n = m) ∧
    ((∀ (n : InputId) (slot : Slot), r.slots[n]? = some slot → slot.alive = false →
        slot.retired = true) →
      ∀ name n, Keyed.get? name r.entries = some n → r.alive n = true) := by
  intro r
  have howned : r.Owned := owned_reached limits hself
  refine ⟨fun n m name hne => get?_retire_of_ne hne,
    fun later operation earlier name n hhistory hlists hkept halive => ?_,
    fun name other n m i j hn hm hi hj hsame => ?_, fun hretired name n hget => ?_⟩
  · have hholder : holder? limits (operation :: earlier) name = some n := by
      cases operation with
      | unregister _ => cases hlists
      | _ => simp [holder?, holderAfter, relisted, hlists]
    have hkeeps : r.Keeps (holder? limits history) := keeps_reached limits history
    refine hkeeps.exposed?_iff.mpr ⟨?_, halive⟩
    subst hhistory
    exact holder?_stays limits hholder hkept halive
  · rw [howned.name_of_exposed? hn hi, howned.name_of_exposed? hm hj] at hsame
    rw [hsame, hm] at hn
    exact (Option.some.inj hn).symm
  · obtain ⟨slot, hslot, _, _, hlasts⟩ := howned.owned name n hget
    refine alive_iff.mpr ⟨slot, hslot, ?_⟩
    cases halive : slot.alive with
    | true => rfl
    | false => cases hlasts.symm.trans (hretired n slot hslot halive)

/-- An input retires after another one took its name over. -/
theorem late_retirement_taken_over :
    let history : History := [.retire 0, .enroll "in" 2, .release 0, .enroll "in" 1]
    (∀ n, .register n ∉ history) ∧ (reached {} history).exposed? "in" = some 1 := by
  intro history
  have hself : ∀ n, .register n ∉ history := by simp [history]
  have hlists : (reached {} [.release 0, .enroll "in" 1]).listing? (.enroll "in" 2) =
      some ("in", 1) := by decide +kernel
  obtain ⟨_, hstays, _⟩ := late_retirement {} history hself
  exact ⟨hself, hstays [.retire 0] _ _ "in" 1 rfl hlists (by simp) (by decide +kernel)⟩

end Roster

end MuxControl
