/-
MuxControl.Proofs.RosterActivity — what the inputs of a roster live
through.

Besides the operations on a roster, its inputs are reported to and asked
one by one. `occurrence?` says what an activity is for one input: a report
or a query of its own, or the query that a listing makes of every input
that it shows. `lived` gathers these into the history of the input.

`lives_worked` says that an input is what its own history makes of it,
whatever happens to the roster and to the other inputs, but for its mark.
The entries are those of the inputs by whose names they go
(`tied_worked`), so a listing asks each input that it shows once.
-/
import MuxControl.Proofs.RosterInputs
import MuxControl.Proofs.HealthHistory

namespace MuxControl

/-! ## The life of an input -/

namespace Input

/-- An input without its mark. -/
def unmarked (i : Input) : Input := { i with marked := false }

theorem unmarked_perform (i : Input) (now : Instant) (entry : HealthEntry) :
    (i.unmarked.perform now entry).2 = (i.perform now entry).2.unmarked := by
  cases entry with
  | report report => cases report <;> rfl
  | query query => cases query <;> rfl

theorem name_perform (i : Input) (now : Instant) (entry : HealthEntry) :
    (i.perform now entry).2.name = i.name := by
  cases entry with
  | report report => cases report <;> rfl
  | query query => cases query <;> rfl

/-- An input is what a history made of it since its creation, whether it
has listed itself or not. -/
def Lives (i : Input) (history : HealthHistory) : Prop :=
  ∃ created, i.unmarked = reached (create i.name i.limits created) history

theorem lives_create (name : String) (limits : Thresholds) (now : Instant) :
    (create name limits now).Lives [] :=
  ⟨now, rfl⟩

/-- What happens to an input, if anything does. -/
def undergo (i : Input) : Option (Instant × HealthEntry) → Input
  | none => i
  | some (now, entry) => (i.perform now entry).2

theorem name_undergo (i : Input) (occurrence? : Option (Instant × HealthEntry)) :
    (i.undergo occurrence?).name = i.name := by
  cases occurrence? with
  | none => rfl
  | some entry => exact i.name_perform entry.1 entry.2

theorem Lives.undergo {i : Input} {history : HealthHistory} (hlives : i.Lives history)
    (occurrence? : Option (Instant × HealthEntry)) :
    (i.undergo occurrence?).Lives (occurrence?.toList ++ history) := by
  cases occurrence? with
  | none => exact hlives
  | some entry =>
    obtain ⟨now, entry⟩ := entry
    obtain ⟨created, hreached⟩ := hlives
    refine ⟨created, ?_⟩
    show (i.perform now entry).2.unmarked = _
    simp only [Input.undergo, name_perform, limits_perform, Option.toList_some,
      List.singleton_append, reached]
    rw [← unmarked_perform, hreached]

/-- The mark is nothing that an input lives through. -/
theorem Lives.of_unmarked {i j : Input} {history : HealthHistory} (hlives : i.Lives history)
    (hsame : j.unmarked = i.unmarked) : j.Lives history := by
  obtain ⟨created, hreached⟩ := hlives
  refine ⟨created, ?_⟩
  have hcreate : ∀ k : Input, create k.name k.limits created =
      create k.unmarked.name k.unmarked.limits created := fun _ => rfl
  rw [hcreate j, hsame, ← hcreate i]
  exact hreached

end Input

namespace Roster

variable {r : Roster} {n : InputId} {i : Input}

/-! ## Activities -/

/-- What goes on in a roster: an operation on it, or something that
happens to one of its inputs directly. -/
inductive Activity where
  | operation (operation : Operation)
  | direct (n : InputId) (now : Instant) (entry : HealthEntry)

/-- What went on in a roster, the latest activity first. -/
abbrev Activities := List Activity

/-- What comes of an activity. An input that is not alive is out of
reach. -/
def carryOut (r : Roster) : Activity → Roster
  | .operation operation => r.perform operation
  | .direct n now entry =>
    if r.alive n then r.change n fun i => (i.perform now entry).2 else r

/-- What comes of activities in a roster that starts without inputs. -/
def worked (limits : Thresholds) : Activities → Roster
  | [] => { limits := limits }
  | activity :: earlier => (worked limits earlier).carryOut activity

/-- What an activity is for one input. A listing is a query for each input
that it shows; one for the values goes by no instant. -/
def occurrence? (r : Roster) (n : InputId) : Activity → Option (Instant × HealthEntry)
  | .operation .renderValues => if r.IsShown n then some (0, .query .values) else none
  | .operation (.renderState now) => if r.IsShown n then some (now, .query .state) else none
  | .operation _ => none
  | .direct m now entry => if m = n ∧ r.alive n then some (now, entry) else none

/-- The history of an input. -/
def lived (limits : Thresholds) (n : InputId) : Activities → HealthHistory
  | [] => []
  | activity :: earlier =>
    ((worked limits earlier).occurrence? n activity).toList ++ lived limits n earlier

/-! ## What an activity does to an input -/

theorem alive_of_isShown (hshown : r.IsShown n) : r.alive n = true := by
  obtain ⟨⟨name, m⟩, hentry, rfl⟩ := List.mem_map.mp hshown
  exact (List.mem_filter.mp hentry).2

theorem exists_input?_of_alive (halive : r.alive n = true) : ∃ i, r.input? n = some i := by
  obtain ⟨slot, hslot, _⟩ := alive_iff.mp halive
  exact ⟨slot.input, by simp [input?, hslot]⟩

/-- Nothing happens to an input that is not there. -/
theorem occurrence?_of_none (hnone : r.input? n = none) (activity : Activity) :
    r.occurrence? n activity = none := by
  have hdead : r.alive n ≠ true := by
    intro halive
    obtain ⟨i, hinput⟩ := exists_input?_of_alive halive
    cases hnone.symm.trans hinput
  have hhidden : ¬ r.IsShown n := fun hshown => hdead (alive_of_isShown hshown)
  cases activity with
  | operation operation => cases operation <;> simp [occurrence?, hhidden]
  | direct m now entry => simp [occurrence?, hdead]

/-- **What an activity does to an input** is what it is for it; only the
mark may change besides. -/
theorem input?_carryOut (hinput : r.input? n = some i) (activity : Activity) :
    ∃ j, (r.carryOut activity).input? n = some j ∧
      j.unmarked = (i.undergo (r.occurrence? n activity)).unmarked := by
  cases activity with
  | operation operation =>
    refine ⟨operation.effect r n i, ?_, ?_⟩
    · show (r.perform operation).input? n = _
      rw [input?_perform, hinput]
      rfl
    · cases operation with
      | registerSelf m =>
        simp only [Operation.effect, occurrence?, Input.undergo]
        split <;> rfl
      | renderValues =>
        simp only [Operation.effect, occurrence?]
        split <;> rfl
      | renderState now =>
        simp only [Operation.effect, occurrence?]
        split <;> rfl
      | _ => rfl
  | direct m now entry =>
    refine ⟨i.undergo (r.occurrence? n (.direct m now entry)), ?_, rfl⟩
    by_cases halive : r.alive m = true
    · by_cases heq : m = n
      · subst heq
        simp [carryOut, occurrence?, halive, input?_change, hinput, Input.undergo]
      · simp [carryOut, occurrence?, halive, input?_change, hinput, Input.undergo, heq]
    · have hnot : ¬ (m = n ∧ r.alive n = true) := by
        rintro ⟨rfl, hlive⟩
        exact halive hlive
      simp [carryOut, occurrence?, halive, hinput, Input.undergo, hnot]

/-- An input that was not there is new. -/
theorem input?_carryOut_of_none (hnone : r.input? n = none) {activity : Activity}
    (hinput : (r.carryOut activity).input? n = some i) :
    ∃ name now, i.unmarked = .create name r.limits now := by
  cases activity with
  | operation operation =>
    have hcreated : operation.created? r n = some i := by
      have hperform := input?_perform r operation n
      rw [hnone] at hperform
      exact hperform.symm.trans hinput
    cases operation with
    | create name now =>
      obtain ⟨_, hnew⟩ := Option.ite_none_right_eq_some.mp hcreated
      obtain rfl := Option.some.inj hnew
      exact ⟨name, now, rfl⟩
    | enroll name now =>
      obtain ⟨_, hnew⟩ := Option.ite_none_right_eq_some.mp hcreated
      obtain rfl := Option.some.inj hnew
      exact ⟨name, now, rfl⟩
    | _ => cases hcreated
  | direct m now entry =>
    simp only [carryOut] at hinput
    split at hinput
    · rw [input?_change, hnone] at hinput
      split at hinput <;> cases hinput
    · cases hnone.symm.trans hinput

/-! ## Every input lives its own history -/

/-- **An input is what it lived through.** Whatever goes on in a roster,
each input is what its own history makes of it, and one that is not there
yet has none. -/
theorem lives_worked (limits : Thresholds) (activities : Activities) (n : InputId) :
    (∀ i, (worked limits activities).input? n = some i → i.Lives (lived limits n activities)) ∧
      ((worked limits activities).input? n = none → lived limits n activities = []) := by
  induction activities with
  | nil =>
    refine ⟨?_, fun _ => rfl⟩
    intro i hinput
    simp [worked, input?] at hinput
  | cons activity earlier ih =>
    obtain ⟨hlives, hnew⟩ := ih
    cases hbefore : (worked limits earlier).input? n with
    | none =>
      have hnothing : lived limits n (activity :: earlier) = [] := by
        simp [lived, occurrence?_of_none hbefore, hnew hbefore]
      rw [hnothing]
      refine ⟨?_, fun _ => rfl⟩
      intro i hinput
      obtain ⟨name, now, hcreated⟩ := input?_carryOut_of_none hbefore hinput
      exact (Input.lives_create name _ now).of_unmarked hcreated
    | some i =>
      obtain ⟨j, hafter, hsame⟩ := input?_carryOut hbefore activity
      rw [worked, hafter]
      constructor
      · intro k heq
        obtain rfl := Option.some.inj heq
        exact ((hlives i hbefore).undergo _).of_unmarked hsame
      · intro hnone
        cases hnone

/-! ## Entries and names -/

theorem name?_carryOut {name : String} (hname : r.name? n = some name) (activity : Activity) :
    (r.carryOut activity).name? n = some name := by
  obtain ⟨i, hinput, rfl⟩ := Option.map_eq_some_iff.mp hname
  obtain ⟨j, hafter, hsame⟩ := input?_carryOut hinput activity
  have hkept : j.unmarked.name = (i.undergo (r.occurrence? n activity)).name := by
    rw [hsame]
    rfl
  rw [name?, hafter, Option.map_some]
  exact congrArg some (hkept.trans (i.name_undergo _))

/-- The entries are tied to holders that go by the names of their
entries. -/
def Tied (r : Roster) : Prop := ∃ holder, r.Keeps holder ∧ r.Called holder

theorem Tied.carryOut (htied : r.Tied) (activity : Activity) : (r.carryOut activity).Tied := by
  obtain ⟨holder, hkeeps, hcalled⟩ := htied
  cases activity with
  | operation operation => exact ⟨_, hkeeps.perform operation, hcalled.perform operation⟩
  | direct m now entry =>
    refine ⟨holder, ?_, ?_⟩
    · simp only [Roster.carryOut]
      split
      · exact hkeeps.sheds (sheds_change r m _)
      · exact hkeeps
    · intro name n hholder
      exact name?_carryOut (hcalled name n hholder) _

theorem tied_worked (limits : Thresholds) (activities : Activities) :
    (worked limits activities).Tied := by
  induction activities with
  | nil => exact ⟨_, keeps_reached limits [], called_reached limits []⟩
  | cons activity earlier ih => exact ih.carryOut activity

/-- A listing shows no input twice. -/
theorem Tied.nodup_liveEntries (htied : r.Tied) : (r.liveEntries.map Prod.snd).Nodup := by
  obtain ⟨holder, hkeeps, hcalled⟩ := htied
  have hordered : Keyed.Ordered r.liveEntries := hkeeps.ordered.filter _
  have hnames : ∀ entry ∈ r.liveEntries, r.name? entry.2 = some entry.1 := by
    intro entry hentry
    have hget := hkeeps.ordered.get?_eq_some_iff.mpr (List.mem_filter.mp hentry).1
    exact hcalled.name?_of_entry hkeeps hget
  -- Two entries of one input would go by one name.
  rw [List.Nodup, List.pairwise_map]
  refine (List.pairwise_map.mp hordered).imp_of_mem ?_
  intro a b ha hb hlt heq
  have hsame : some a.1 = some b.1 := by rw [← hnames a ha, ← hnames b hb, heq]
  rw [Option.some.inj hsame] at hlt
  exact String.lt_irrefl _ hlt

end Roster

end MuxControl
