/-
MuxControl.Proofs.ListedGauge — what the gauge of listed inputs counts.

Every operation that changes the entries counts them anew, but for the
renders: these prune stale entries and leave the gauge alone
(`gauge_perform`). So the gauge has the length of the entries as they were
counted last (`lastCounted`), and what the listings show are those of them
whose inputs are still alive (`Counts.live`). The gauge tells the truth
just if all of them are: `gauge_truthful_iff`.

An input that listed itself takes its entry away when it ends, and has the
rest counted: if its end comes at once, it is not counted any more
(`alive_of_counted`).
-/
import Mathlib.Tactic.ByContra
import MuxControl.Proofs.LateRetirement
import MuxControl.Proofs.SelfListing

namespace MuxControl

namespace Roster

variable {r r' : Roster} {n : InputId}

/-- What holds of a roster holds after an operation on an input that must be
alive, if it does where that happens. -/
theorem guarded {P : Roster → Prop} (hsame : P r) (hafter : r.alive n = true → P r') :
    P (if r.alive n then r' else r) := by
  split
  · next halive => exact hafter halive
  · exact hsame

/-! ## Operations that count -/

/-- Whether an operation changes the entries other than by pruning. -/
def Recounts (r : Roster) (operation : Operation) : Prop :=
  operation.renders = false ∧ (r.perform operation).entries ≠ r.entries

instance (r : Roster) (operation : Operation) : Decidable (r.Recounts operation) :=
  inferInstanceAs (Decidable (_ ∧ _))

/-- The gauge is left alone with the entries, and set if they change. -/
def Gauges (r r' : Roster) : Prop :=
  r'.gauge = if r'.entries = r.entries then r.gauge else some r'.entries.length

theorem gauges_aside (hentries : r'.entries = r.entries) (hgauge : r'.gauge = r.gauge) :
    r.Gauges r' := by
  rw [Gauges, if_pos hentries, hgauge]

theorem gauges_measured (hchanged : r'.entries ≠ r.entries)
    (hgauge : r'.gauge = some r'.entries.length) : r.Gauges r' := by
  rw [Gauges, if_neg hchanged, hgauge]

theorem alive_created (r : Roster) (name : String) (now : Instant) :
    (r.create name now).2.alive (r.create name now).1 = true :=
  alive_iff.mpr ⟨_, List.getElem?_concat_length, rfl⟩

/-- An input that is alive has no entry yet if it comes to be listed. -/
theorem entries_register_ne (halive : r.alive n = true) {name : String}
    (hlists : r.lists? n = some (name, n)) : (r.register n).2.entries ≠ r.entries := by
  obtain ⟨hnone, _⟩ | ⟨name', hlists', _, _, _, hentries⟩ := r.register_cases n
  · cases hnone.symm.trans hlists
  · intro hsame
    have hget : Keyed.get? name' r.entries = some n := by
      rw [← hsame, hentries, Keyed.get?_put_self]
    cases (exposed?_of_lists? hlists').symm.trans (exposed?_eq_some_iff.mpr ⟨hget, halive⟩)

theorem gauge_register (r : Roster) (n : InputId) :
    (r.register n).2 = r ∨ (r.register n).2.gauge = some (r.register n).2.entries.length := by
  unfold register
  cases r.input? n with
  | none => exact .inl rfl
  | some input =>
    cases hexposed : r.exposed? input.name with
    | some other => exact .inl (by simp [hexposed])
    | none => exact .inr (by simp [hexposed, measure])

theorem gauges_register (halive : r.alive n = true) : r.Gauges (r.register n).2 := by
  obtain ⟨_, hsame⟩ | ⟨name, hlists, _⟩ := r.register_cases n
  · rw [hsame]
    exact gauges_aside rfl rfl
  · have hchanged := entries_register_ne halive hlists
    obtain hsame | hgauge := r.gauge_register n
    · exact absurd (congrArg entries hsame) hchanged
    · exact gauges_measured hchanged hgauge

theorem gauges_registerSelf (halive : r.alive n = true) : r.Gauges (r.registerSelf n).2 := by
  obtain ⟨_, hsame⟩ | ⟨_, _, hchange⟩ := r.registerSelf_cases n
  · rw [hsame]
    exact gauges_aside rfl rfl
  · rw [hchange]
    exact gauges_register halive

/-- A name that is taken away was bound. -/
theorem remove_ne {name : String} {entries : List (String × InputId)}
    (hget : Keyed.get? name entries = some n) : Keyed.remove name entries ≠ entries := by
  intro hsame
  rw [← hsame, Keyed.get?_remove_self] at hget
  cases hget

theorem gauges_unregister (r : Roster) (name : String) : r.Gauges (r.unregister name) := by
  unfold unregister Keyed.has
  cases hget : Keyed.get? name r.entries with
  | none => exact gauges_aside rfl rfl
  | some n => exact gauges_measured (remove_ne hget) rfl

theorem gauges_unregisterInput (r : Roster) (name : String) (n : InputId) :
    r.Gauges (r.unregisterInput name n) := by
  unfold unregisterInput
  split
  · next hget => exact gauges_measured (remove_ne hget) rfl
  · exact gauges_aside rfl rfl

theorem gauges_retire (r : Roster) (n : InputId) : r.Gauges (r.retire n) := by
  unfold retire
  split
  · exact gauges_aside rfl rfl
  · split
    · exact gauges_aside rfl rfl
    · dsimp only
      split
      · exact gauges_unregisterInput { r with slots := _ } _ n
      · exact gauges_aside rfl rfl

theorem gauge_renderEach {α : Type} (render : Input → α × Input) (r : Roster) :
    (r.renderEach render).2.gauge = r.gauge := by
  have hfold : ∀ (entries : List (String × InputId)) (r : Roster),
      (entries.foldl (fun r entry => r.change entry.2 fun i => (render i).2) r).gauge =
        r.gauge := by
    intro entries
    induction entries with
    | nil => exact fun _ => rfl
    | cons entry rest ih => exact fun r => ih (r.change entry.2 fun i => (render i).2)
  exact hfold r.liveEntries r

/-- **What sets the gauge.** Every operation that changes the entries counts
them, but for the renders, which leave the gauge alone. -/
theorem gauge_perform (r : Roster) (operation : Operation) :
    (r.perform operation).gauge =
      if r.Recounts operation then some (r.perform operation).entries.length else r.gauge := by
  have hcounts : ∀ operation : Operation, operation.renders = false →
      r.Gauges (r.perform operation) →
      (r.perform operation).gauge =
        if r.Recounts operation then some (r.perform operation).entries.length else r.gauge := by
    intro operation hrenders hgauges
    by_cases hsame : (r.perform operation).entries = r.entries
    · rw [if_neg (fun hrecounts => hrecounts.2 hsame), hgauges, if_pos hsame]
    · rw [if_pos ⟨hrenders, hsame⟩, hgauges, if_neg hsame]
  have hsame : r.Gauges r := gauges_aside rfl rfl
  cases operation with
  | create name now => exact hcounts _ rfl (gauges_aside rfl rfl)
  | enroll name now =>
    have halive := r.alive_created name now
    exact hcounts _ rfl (gauges_registerSelf (r := (r.create name now).2) halive)
  | registerSelf n => exact hcounts _ rfl (guarded hsame gauges_registerSelf)
  | register n => exact hcounts _ rfl (guarded hsame gauges_register)
  | unregister name => exact hcounts _ rfl (r.gauges_unregister name)
  | hold n => exact hcounts _ rfl (guarded hsame fun _ => gauges_aside rfl rfl)
  | release n => exact hcounts _ rfl (gauges_aside rfl rfl)
  | retire n => exact hcounts _ rfl (r.gauges_retire n)
  | drop n => exact hcounts _ rfl ((r.release n).gauges_retire n)
  | ids | renderConfig | renderValues | renderState now =>
    exact (gauge_renderEach _ r).trans (if_neg fun hrecounts => nomatch hrecounts.1).symm

/-! ## Where entries come from -/

variable {holder : String → Option InputId}

/-- The entries are those of the inputs that they name. -/
theorem Keeps.own (hkeeps : r.Keeps holder) : r.Keeps fun name => Keyed.get? name r.entries where
  ordered := hkeeps.ordered
  held _ _ hget := hget
  living _ _ hget _ := hget
  known name n hget := hkeeps.known name n (hkeeps.held name n hget)

/-- An entry was there before, or the operation lists it. -/
theorem Keeps.mem_entries_perform (hkeeps : r.Keeps holder) {operation : Operation}
    {entry : String × InputId} (hmem : entry ∈ (r.perform operation).entries) :
    entry ∈ r.entries ∨ r.listing? operation = some entry := by
  obtain ⟨name, n⟩ := entry
  have hafter := hkeeps.own.perform operation
  have hholds := hafter.held name n (hafter.ordered.get?_eq_some_iff.mpr hmem)
  have hrelisted : relisted (fun name => Keyed.get? name r.entries) (r.listing? operation) name =
      some n → (name, n) ∈ r.entries ∨ r.listing? operation = some (name, n) := by
    intro hrelisted
    cases hlists : r.listing? operation with
    | none =>
      rw [hlists] at hrelisted
      exact .inl (Keyed.mem_of_get? hrelisted)
    | some listed =>
      obtain ⟨other, m⟩ := listed
      rw [hlists] at hrelisted
      simp only [relisted] at hrelisted
      split at hrelisted
      · next heq =>
        obtain rfl := Option.some.inj hrelisted
        rw [heq]
        exact .inr rfl
      · exact .inl (Keyed.mem_of_get? hrelisted)
  cases operation with
  | unregister other => exact .inl (Keyed.mem_of_get? (Option.ite_none_left_eq_some.mp hholds).2)
  | _ => exact hrelisted hholds

/-- An operation that lists an input adds its entry, and counts. -/
theorem recounts_of_listing? {operation : Operation} {entry : String × InputId}
    (hlists : r.listing? operation = some entry) : r.Recounts operation := by
  have hself : ∀ {r : Roster} {n : InputId}, r.alive n = true → r.listsSelf? n = some entry →
      (r.registerSelf n).2.entries ≠ r.entries := by
    intro r n halive hlists
    obtain ⟨hnone, _⟩ | ⟨_, _, hchange⟩ := r.registerSelf_cases n
    · cases hnone.symm.trans hlists
    · rw [hchange]
      have hlisted := lists?_of_listsSelf? hlists
      obtain ⟨name, m⟩ := entry
      obtain rfl : m = n := (name?_of_lists? hlisted).1
      exact entries_register_ne halive hlisted
  cases operation with
  | enroll name now =>
    exact ⟨rfl, hself (r := (r.create name now).2) (r.alive_created name now) hlists⟩
  | registerSelf n =>
    obtain ⟨halive, hlists⟩ := Option.ite_none_right_eq_some.mp hlists
    refine ⟨rfl, ?_⟩
    rw [perform, if_pos halive]
    exact hself halive hlists
  | register n =>
    obtain ⟨halive, hlists⟩ := Option.ite_none_right_eq_some.mp hlists
    refine ⟨rfl, ?_⟩
    rw [perform, if_pos halive]
    obtain ⟨name, m⟩ := entry
    obtain rfl : m = n := (name?_of_lists? hlists).1
    exact entries_register_ne halive hlists
  | _ => cases hlists

/-! ## What was counted last -/

/-- Whether an input has ever been listed. -/
def everListed (limits : Thresholds) : History → Bool
  | [] => false
  | operation :: earlier =>
    everListed limits earlier || ((reached limits earlier).listing? operation).isSome

/-- The entries as they were counted last. -/
def lastCounted (limits : Thresholds) : History → Option (List (String × InputId))
  | [] => none
  | operation :: earlier =>
    if (reached limits earlier).Recounts operation then
      some (reached limits (operation :: earlier)).entries
    else lastCounted limits earlier

theorem gauge_reached (limits : Thresholds) (history : History) :
    (reached limits history).gauge = (lastCounted limits history).map List.length := by
  induction history with
  | nil => rfl
  | cons operation earlier ih =>
    rw [reached, gauge_perform, lastCounted, ih]
    split <;> rfl

theorem lastCounted_of_never {limits : Thresholds} {history : History}
    (hnever : everListed limits history = false) :
    lastCounted limits history = none ∧ (reached limits history).entries = [] := by
  induction history with
  | nil => exact ⟨rfl, rfl⟩
  | cons operation earlier ih =>
    obtain ⟨hearlier, hnone⟩ := Bool.or_eq_false_iff.mp hnever
    obtain ⟨hcounted, hempty⟩ := ih hearlier
    have hstill : (reached limits (operation :: earlier)).entries = [] := by
      refine List.eq_nil_iff_forall_not_mem.mpr fun entry hmem => ?_
      obtain hbefore | hlists := (keeps_reached limits earlier).mem_entries_perform hmem
      · rw [hempty] at hbefore
        cases hbefore
      · rw [hlists] at hnone
        cases hnone
    refine ⟨?_, hstill⟩
    rw [lastCounted, if_neg fun hrecounts => hrecounts.2 (hstill.trans hempty.symm), hcounted]

theorem exists_lastCounted {limits : Thresholds} {history : History}
    (hlisted : everListed limits history = true) :
    ∃ counted, lastCounted limits history = some counted := by
  induction history with
  | nil => cases hlisted
  | cons operation earlier ih =>
    rw [lastCounted]
    split
    · exact ⟨_, rfl⟩
    · next hnot =>
      obtain hearlier | hlists := Bool.or_eq_true_iff.mp hlisted
      · exact ih hearlier
      · obtain ⟨entry, hentry⟩ := Option.isSome_iff_exists.mp hlists
        exact absurd (recounts_of_listing? hentry) hnot

/-- The entries are among those counted, and the ones of inputs that are
alive are the same. -/
structure Counts (r : Roster) (counted : List (String × InputId)) : Prop where
  live : r.liveEntries = counted.filter fun entry => r.alive entry.2
  among : ∀ entry ∈ r.entries, entry ∈ counted
  known : ∀ entry ∈ counted, entry.2 < r.slots.length

theorem counts_entries (hkeeps : r.Keeps holder) : r.Counts r.entries where
  live := rfl
  among _ hmem := hmem
  known entry hmem :=
    hkeeps.own.known entry.1 entry.2 (hkeeps.ordered.get?_eq_some_iff.mpr hmem)

variable {counted : List (String × InputId)}

/-- What neither counts nor lists an input leaves the entries alone or
prunes them. -/
theorem Counts.perform (hcounts : r.Counts counted) (hkeeps : r.Keeps holder)
    {operation : Operation} (hnot : ¬ r.Recounts operation) :
    (r.perform operation).Counts counted := by
  have hages := r.ages_perform operation
  have hentries : (r.perform operation).entries = r.entries ∨
      (r.perform operation).entries = r.liveEntries := by
    cases hrenders : operation.renders with
    | false =>
      left
      exact Decidable.not_not.mp fun hchanged => hnot ⟨hrenders, hchanged⟩
    | true =>
      right
      cases operation with
      | ids | renderConfig | renderValues | renderState => exact entries_renderEach _ r
      | _ => cases hrenders
  -- Whoever is alive afterwards was alive before.
  have hlater : ∀ {entries : List (String × InputId)},
      (∀ entry ∈ entries, entry.2 < r.slots.length) →
      entries.filter (fun entry => (r.perform operation).alive entry.2) =
        (entries.filter fun entry => r.alive entry.2).filter
          fun entry => (r.perform operation).alive entry.2 := by
    intro entries hknown
    rw [List.filter_filter]
    refine List.filter_congr fun entry hmem => ?_
    cases halive : (r.perform operation).alive entry.2 with
    | false => rfl
    | true => rw [hages.alive entry.2 (hknown entry hmem) halive]; rfl
  have hlive : (r.perform operation).liveEntries =
      r.liveEntries.filter fun entry => (r.perform operation).alive entry.2 := by
    rcases hentries with hsame | hpruned
    · rw [liveEntries, hsame]
      exact hlater (counts_entries hkeeps).known
    · rw [liveEntries, hpruned]
  refine ⟨?_, fun entry hmem => ?_, fun entry hmem => ?_⟩
  · rw [hlive, hcounts.live, ← hlater hcounts.known]
  · rcases hentries with hsame | hpruned
    · exact hcounts.among entry (hsame ▸ hmem)
    · exact hcounts.among entry (List.mem_filter.mp (hpruned ▸ hmem)).1
  · exact Nat.lt_of_lt_of_le (hcounts.known entry hmem) hages.grown

theorem counts_reached {limits : Thresholds} {history : History}
    (hcounted : lastCounted limits history = some counted) :
    (reached limits history).Counts counted := by
  induction history with
  | nil => cases hcounted
  | cons operation earlier ih =>
    rw [lastCounted] at hcounted
    split at hcounted
    · obtain rfl := Option.some.inj hcounted
      exact counts_entries (keeps_reached limits (operation :: earlier))
    · next hnot => exact (ih hcounted).perform (keeps_reached limits earlier) hnot

/-! ## Who is counted and dead -/

theorem alive_retire (r : Roster) (n m : InputId) : (r.retire n).alive m = r.alive m := by
  obtain ⟨retired, _, halive, _, hsame | ⟨_, name, htaken⟩⟩ := r.retire_cases n
  · rw [hsame, halive]
  · rw [htaken, ← halive m, alive, slots_unregisterInput, alive]

theorem alive_release_of_ne {m : InputId} (hne : m ≠ n) :
    (r.release m).alive n = r.alive n := by
  simp [alive, release, hne]

theorem alive_create (halive : r.alive n = true) (name : String) (now : Instant) :
    (r.create name now).2.alive n = true := by
  obtain ⟨slot, hslot, hheld⟩ := alive_iff.mp halive
  have hknown := (List.getElem?_eq_some_iff.mp hslot).1
  exact alive_iff.mpr ⟨slot, (List.getElem?_append_left hknown).trans hslot, hheld⟩

theorem alive_hold (halive : r.alive n = true) (m : InputId) : (r.hold m).alive n = true := by
  obtain ⟨slot, hslot, hheld⟩ := alive_iff.mp halive
  refine alive_iff.mpr ⟨_, by rw [hold, List.getElem?_modify, hslot]; rfl, ?_⟩
  split
  · exact decide_eq_true (Nat.succ_pos _)
  · exact hheld

theorem alive_register (r : Roster) (m n : InputId) : (r.register m).2.alive n = r.alive n := by
  obtain ⟨_, hsame⟩ | ⟨_, _, _, _, hslots, _⟩ := r.register_cases m
  · rw [hsame]
  · rw [alive, hslots, alive]

/-- An input dies when its last holder lets go of it. -/
theorem eq_of_dies {operation : Operation} (halive : r.alive n = true)
    (hdead : (r.perform operation).alive n = false) :
    operation = .drop n ∨ operation = .release n := by
  let lives (r : Roster) : Prop := r.alive n = true
  have hnot : ∀ r' : Roster, lives r' → r'.alive n = false →
      operation = .drop n ∨ operation = .release n := by
    intro r' htrue hfalse
    cases htrue.symm.trans hfalse
  cases operation with
  | create name now => exact hnot _ (alive_create halive name now) hdead
  | enroll name now =>
    exact hnot _ ((alive_registerSelf _ _ n).trans (alive_create halive name now)) hdead
  | registerSelf m =>
    exact hnot _ (guarded (P := lives) halive fun _ =>
      (r.alive_registerSelf m n).trans halive) hdead
  | register m =>
    exact hnot _ (guarded (P := lives) halive fun _ =>
      (r.alive_register m n).trans halive) hdead
  | unregister name => exact hnot r halive (by rwa [perform, alive, slots_unregister] at hdead)
  | hold m => exact hnot _ (guarded (P := lives) halive fun _ => alive_hold halive m) hdead
  | release m =>
    by_cases heq : m = n
    · exact .inr (heq ▸ rfl)
    · exact hnot _ ((alive_release_of_ne heq).trans halive) hdead
  | retire m => exact hnot _ ((r.alive_retire m n).trans halive) hdead
  | drop m =>
    by_cases heq : m = n
    · exact .inl (heq ▸ rfl)
    · refine hnot _ (((r.release m).alive_retire m n).trans ?_) hdead
      exact (alive_release_of_ne heq).trans halive
  | ids | renderConfig | renderValues | renderState =>
    exact hnot _ ((r.alive_renderEach _ n).trans halive) hdead

theorem alive_of_listing? {operation : Operation} {name : String}
    (hlists : r.listing? operation = some (name, n)) : (r.perform operation).alive n = true := by
  cases operation with
  | enroll other now =>
    obtain ⟨rfl, _⟩ := name?_of_lists? (lists?_of_listsSelf? hlists)
    exact (alive_registerSelf _ _ _).trans (r.alive_created other now)
  | registerSelf m =>
    obtain ⟨halive, hself⟩ := Option.ite_none_right_eq_some.mp hlists
    obtain ⟨rfl, _⟩ := name?_of_lists? (lists?_of_listsSelf? hself)
    rw [perform, if_pos halive, alive_registerSelf, halive]
  | register m =>
    obtain ⟨halive, hother⟩ := Option.ite_none_right_eq_some.mp hlists
    obtain ⟨rfl, _⟩ := name?_of_lists? hother
    rw [perform, if_pos halive, alive_register, halive]
  | _ => cases hlists

theorem Sealed.registerSelf (hsealed : r.Sealed) (n : InputId) :
    (r.registerSelf n).2.Sealed := by
  obtain hsame | ⟨_, hinput, hunmarked, hslots, _⟩ := r.registerSelf_outcomes n
  · rw [hsame]
    exact hsealed
  · exact (hsealed.lasts (lasts_mark hinput hunmarked _)).lasts (lasts_of_slots hslots)

theorem Sealed.perform (hsealed : r.Sealed) (operation : Operation) :
    (r.perform operation).Sealed := by
  cases operation with
  | create name now => exact hsealed.lasts (r.lasts_create name now)
  | enroll name now => exact (hsealed.lasts (r.lasts_create name now)).registerSelf _
  | registerSelf n => exact guarded hsealed fun _ => hsealed.registerSelf n
  | register n =>
    refine guarded hsealed fun _ => ?_
    obtain ⟨_, hsame⟩ | ⟨_, _, _, _, hslots, _⟩ := r.register_cases n
    · rw [hsame]
      exact hsealed
    · exact hsealed.lasts (lasts_of_slots hslots)
  | unregister name => exact hsealed.lasts (lasts_of_slots (slots_unregister r name))
  | hold n => exact guarded hsealed fun halive => hsealed.lasts (lasts_hold halive)
  | release n => exact hsealed.lasts (r.lasts_release n)
  | retire n => exact hsealed.retire n
  | drop n => exact (hsealed.lasts (r.lasts_release n)).retire n
  | ids => exact hsealed.lasts (r.lasts_render 0 .names)
  | renderConfig => exact hsealed.lasts (r.lasts_render 0 .names)
  | renderValues => exact hsealed.lasts (r.lasts_render 0 .values)
  | renderState now => exact hsealed.lasts (r.lasts_render now .states)

theorem sealed_reached (limits : Thresholds) (history : History) :
    (reached limits history).Sealed := by
  induction history with
  | nil =>
    intro n slot hnone
    cases hnone
  | cons operation earlier ih => exact ih.perform operation

/-- A marked input that is dropped for good has no entry any more. -/
theorem get?_drop_of_dead (hsealed : r.Sealed) (halive : r.alive n = true)
    (hdead : (r.drop n).alive n = false) {input : Input} (hinput : r.input? n = some input)
    (hmarked : input.marked = true) :
    Keyed.get? input.name (r.drop n).entries ≠ some n := by
  obtain ⟨slot, hslot, rfl⟩ := Option.map_eq_some_iff.mp hinput
  obtain ⟨_, hfound, hheld⟩ := alive_iff.mp halive
  obtain rfl := Option.some.inj (hslot.symm.trans hfound)
  have hretired : slot.retired = false := by
    cases hretired : slot.retired with
    | false => rfl
    | true => cases hheld.symm.trans (hsealed n slot hslot hretired)
  let released : Slot := { slot with holders := slot.holders - 1 }
  have hreleased : (r.release n).slots[n]? = some released := by simp [release, hslot, released]
  have hlast : released.alive = false := by
    rw [drop, alive_retire, alive, hreleased] at hdead
    exact hdead
  intro hget
  obtain ⟨_, hentries⟩ := retire_of_dead hreleased hlast hretired
  rw [drop, hentries] at hget
  split at hget
  · rw [Keyed.get?_remove_self] at hget
    cases hget
  · next hnot => exact hnot ⟨hmarked, hget⟩

/-- No end of an input is drawn out: it does what it does last once nobody
holds it. -/
def EndsAtOnce (history : History) : Prop :=
  ∀ n, .release n ∉ history ∧ .retire n ∉ history

theorem EndsAtOnce.earlier {operation : Operation} {history : History}
    (hends : EndsAtOnce (operation :: history)) : EndsAtOnce history :=
  fun n => ⟨fun hmem => (hends n).1 (List.mem_cons_of_mem _ hmem),
    fun hmem => (hends n).2 (List.mem_cons_of_mem _ hmem)⟩

variable {limits : Thresholds} {operation : Operation} {earlier : History}

/-- What is counted was counted before, or has just been listed. -/
theorem mem_lastCounted (hcounted : lastCounted limits (operation :: earlier) = some counted)
    {entry : String × InputId} (hmem : entry ∈ counted) :
    (∃ before, lastCounted limits earlier = some before ∧ entry ∈ before) ∨
      (reached limits earlier).listing? operation = some entry := by
  rw [lastCounted] at hcounted
  split at hcounted
  · obtain rfl := Option.some.inj hcounted
    obtain hbefore | hlists := (keeps_reached limits earlier).mem_entries_perform hmem
    · left
      cases hlisted : everListed limits earlier with
      | false =>
        rw [(lastCounted_of_never hlisted).2] at hbefore
        cases hbefore
      | true =>
        obtain ⟨before, hlast⟩ := exists_lastCounted hlisted
        exact ⟨before, hlast, (counts_reached hlast).among entry hbefore⟩
    · exact .inr hlists
  · exact .inl ⟨counted, hcounted, hmem⟩

/-- An input that is counted was listed by itself or by somebody else. -/
theorem listed_of_counted {history : History} (hcounted : lastCounted limits history = some counted)
    {entry : String × InputId} (hmem : entry ∈ counted) :
    hasListedItself limits entry.2 history = true ∨ .register entry.2 ∈ history := by
  induction history generalizing counted with
  | nil => cases hcounted
  | cons operation earlier ih =>
    obtain ⟨before, hlast, hbefore⟩ | hlists := mem_lastCounted hcounted hmem
    · exact (ih hlast hbefore).imp (fun hself => Bool.or_eq_true_iff.mpr (.inl hself))
        (List.mem_cons_of_mem operation)
    · cases operation with
      | register n =>
        obtain ⟨_, hlists⟩ := Option.ite_none_right_eq_some.mp hlists
        obtain ⟨rfl, _⟩ := name?_of_lists? hlists
        exact .inr List.mem_cons_self
      | _ => exact .inl (Bool.or_eq_true_iff.mpr (.inr (by simp [listsItself, hlists])))

/-- A marked input that is counted is alive, as it has its entry taken away
and the rest counted when it ends. -/
theorem alive_of_counted {history : History} (hends : EndsAtOnce history)
    (hcounted : lastCounted limits history = some counted) {entry : String × InputId}
    (hmem : entry ∈ counted) (hmarked : (reached limits history).isMarked entry.2 = true) :
    (reached limits history).alive entry.2 = true := by
  induction history generalizing counted with
  | nil => cases hcounted
  | cons operation earlier ih =>
    obtain ⟨name, n⟩ := entry
    have hkeeps := keeps_reached limits earlier
    by_contra hnot
    have hdead := Bool.eq_false_iff.mpr hnot
    -- Listing itself, now or at all, would have found it alive.
    have hunlisted : ∀ name, (reached limits earlier).listing? operation ≠ some (name, n) := by
      intro name hlists
      exact hnot (alive_of_listing? hlists)
    obtain ⟨before, hlast, hbefore⟩ | hlists := mem_lastCounted hcounted hmem
    · have hmark : (reached limits earlier).isMarked n = true := by
        rw [reached, isMarked_perform] at hmarked
        refine (Bool.or_eq_true_iff.mp hmarked).resolve_right fun hself => ?_
        unfold listsItself at hself
        split at hself
        · cases hself
        · obtain ⟨⟨other, m⟩, hlists, hsame⟩ := (Option.any_eq_true _ _).mp hself
          obtain rfl : m = n := of_decide_eq_true hsame
          exact hunlisted other hlists
      have halive := ih hends.earlier hlast hbefore hmark
      obtain rfl : operation = .drop n := by
        refine (eq_of_dies halive hdead).resolve_right fun hrelease => ?_
        exact (hends n).1 (hrelease ▸ List.mem_cons_self)
      -- Its entry was still there, and would be now.
      have hentry : (name, n) ∈ (reached limits earlier).entries := by
        have hlive : (name, n) ∈ (reached limits earlier).liveEntries := by
          rw [(counts_reached hlast).live]
          exact List.mem_filter.mpr ⟨hbefore, halive⟩
        exact (List.mem_filter.mp hlive).1
      have hafter : (name, n) ∈ (reached limits (.drop n :: earlier)).entries := by
        rw [lastCounted] at hcounted
        split at hcounted
        · exact Option.some.inj hcounted ▸ hmem
        · next hsame =>
          have hentries : (reached limits (.drop n :: earlier)).entries =
              (reached limits earlier).entries :=
            Decidable.not_not.mp fun hchanged => hsame ⟨rfl, hchanged⟩
          exact hentries ▸ hentry
      have hget := (keeps_reached limits (.drop n :: earlier)).ordered.get?_eq_some_iff.mpr hafter
      have hname := (called_reached limits earlier).name?_of_entry hkeeps
        (hkeeps.ordered.get?_eq_some_iff.mpr hentry)
      obtain ⟨input, hinput, rfl⟩ := Option.map_eq_some_iff.mp hname
      have hmarked' : input.marked = true := by simpa [isMarked, hinput] using hmark
      exact get?_drop_of_dead (sealed_reached limits earlier) halive hdead hinput hmarked' hget
    · exact hunlisted name hlists

/-! ## The gauge and the listings -/

theorem length_ids (r : Roster) : r.ids.1.length = r.liveEntries.length := by
  have hids : r.ids.1 = Keyed.keys r.liveEntries := keys_renderEach _ r
  rw [hids, Keyed.keys, List.length_map]

/-- **When the gauge tells the truth.** At any point of a history, the gauge
is set once an input has been listed. Then it shows the number of inputs
that are listed and alive just if all inputs that were counted when it was
last set are alive still; it shows as many too much as are not. Where ends
are not drawn out, those were listed by somebody else and never by
themselves; so it is right if inputs list themselves only. -/
theorem gauge_truthful_iff (limits : Thresholds) (history : History) :
    let r := reached limits history
    (everListed limits history = false → r.gauge = none ∧ r.ids.1 = []) ∧
      (everListed limits history = true → ∃ counted, lastCounted limits history = some counted ∧
        r.gauge = some (r.ids.1.length + counted.countP fun entry => !r.alive entry.2) ∧
        (r.gauge = some r.ids.1.length ↔ ∀ entry ∈ counted, r.alive entry.2 = true) ∧
        (EndsAtOnce history → ∀ entry ∈ counted, r.alive entry.2 = false →
          .register entry.2 ∈ history ∧ hasListedItself limits entry.2 history = false)) ∧
      (everListed limits history = true → EndsAtOnce history → (∀ n, .register n ∉ history) →
        r.gauge = some r.ids.1.length) := by
  intro r
  have hgauge : r.gauge = (lastCounted limits history).map List.length :=
    gauge_reached limits history
  have hlisted : everListed limits history = true →
      ∃ counted, lastCounted limits history = some counted ∧
        r.gauge = some (r.ids.1.length + counted.countP fun entry => !r.alive entry.2) ∧
        (r.gauge = some r.ids.1.length ↔ ∀ entry ∈ counted, r.alive entry.2 = true) ∧
        (EndsAtOnce history → ∀ entry ∈ counted, r.alive entry.2 = false →
          .register entry.2 ∈ history ∧ hasListedItself limits entry.2 history = false) := by
    intro hlisted
    obtain ⟨counted, hcounted⟩ := exists_lastCounted hlisted
    have hcounts : r.Counts counted := counts_reached hcounted
    have hids : r.ids.1.length = counted.countP fun entry => r.alive entry.2 := by
      rw [length_ids, hcounts.live, List.countP_eq_length_filter]
    have hshown : r.gauge = some counted.length := by rw [hgauge, hcounted]; rfl
    refine ⟨counted, hcounted, ?_, ?_, fun hends entry hmem hdead => ?_⟩
    · rw [hshown, hids, List.length_eq_countP_add_countP fun entry => r.alive entry.2]
      simp
    · rw [hshown, hids, Option.some_inj, eq_comm, List.countP_eq_length]
    · have hunmarked : hasListedItself limits entry.2 history = false := by
        rw [← isMarked_reached]
        refine Bool.eq_false_iff.mpr fun hmarked => ?_
        cases hdead.symm.trans (alive_of_counted hends hcounted hmem hmarked)
      refine ⟨(listed_of_counted hcounted hmem).resolve_left fun hself => ?_, hunmarked⟩
      cases hunmarked.symm.trans hself
  refine ⟨fun hnever => ?_, hlisted, fun hever hends hself => ?_⟩
  · obtain ⟨hnone, hempty⟩ := lastCounted_of_never hnever
    refine ⟨by rw [hgauge, hnone]; rfl, List.eq_nil_of_length_eq_zero ?_⟩
    rw [length_ids, liveEntries, hempty]
    rfl
  · obtain ⟨counted, _, _, hiff, hothers⟩ := hlisted hever
    refine hiff.mpr fun entry hmem => ?_
    by_contra hnot
    exact hself entry.2 (hothers hends entry hmem (Bool.eq_false_iff.mpr hnot)).1

/-- An input that listed itself is not counted any more once it is dropped. -/
example : (reached {} [.drop 0, .registerSelf 0, .create "in" 0]).gauge = some 0 := by
  decide +kernel

/-- **A render takes an entry away and leaves it counted.** An input is
listed by somebody else and dropped, and a render prunes its entry: nobody
is listed, and the gauge shows one. -/
theorem pruned_still_counted :
    ¬ ∀ (limits : Thresholds) (history : History), everListed limits history = true →
      (reached limits history).gauge = some (reached limits history).ids.1.length := by
  intro h
  have hsame := h {} [.renderConfig, .drop 0, .register 0, .create "in" 0] (by decide +kernel)
  revert hsame
  decide +kernel

end Roster

end MuxControl
