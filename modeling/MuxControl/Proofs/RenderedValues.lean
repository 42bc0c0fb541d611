/-
MuxControl.Proofs.RenderedValues — the values of an input, and the
reports they tell of.

`pending` are the reports of a history that no render has cleared yet,
and `accounted` says what is to be told of reports, without any tally.
The tally of an input keeps just that (`tally_reached`), so what it shows
is read off the pending reports.

Every report is told by one render of the values, is discarded by one of
the states, or is pending (`perm_reported`): none is told twice or lost
otherwise. `values_accounted` puts both together for the inputs of a
roster, which are rendered directly or in a listing.
-/
import MuxControl.Proofs.BulkRender
import Mathlib.Algebra.Ring.Nat
import Mathlib.Data.List.Basic

namespace MuxControl

/-! ## What is told of reports -/

namespace Report

/-- The fill level that is reported. -/
@[simp] def level? : Report → Option Nat
  | .level n => some n
  | _ => none

/-- The magnitude of the left peak that is reported. -/
@[simp] def left? : Report → Option Nat
  | .peaks left _ => some left.natAbs
  | _ => none

/-- The magnitude of the right peak that is reported. -/
@[simp] def right? : Report → Option Nat
  | .peaks _ right => some right.natAbs
  | _ => none

end Report

/-- The greatest of some numbers, or 0. -/
def greatest (numbers : List Nat) : Nat := numbers.max?.getD 0

/-- The values that tell of reports. -/
def accounted (reports : List Report) : Values where
  minFill := (reports.filterMap Report.level?).min?.elim (-1) fun least => min least Word.max63
  maxFill := greatest (reports.filterMap Report.level?)
  peakLeft := decibels (greatest (reports.filterMap Report.left?))
  peakRight := decibels (greatest (reports.filterMap Report.right?))
  underruns := reports.count .underrun
  overruns := reports.count .overrun

/-- The tally of reports. -/
def tallied (reports : List Report) : Tally where
  minFill := (reports.filterMap Report.level?).min?
  maxFill := greatest (reports.filterMap Report.level?)
  peakLeft := greatest (reports.filterMap Report.left?)
  peakRight := greatest (reports.filterMap Report.right?)
  underruns := reports.count .underrun
  overruns := reports.count .overrun

theorem greatest_cons (n : Nat) (numbers : List Nat) :
    greatest (n :: numbers) = max (greatest numbers) n := by
  unfold greatest
  rw [List.max?_cons, Option.getD_some]
  cases numbers.max? with
  | none => simp
  | some m => exact Nat.max_comm n m

theorem le_greatest {n : Nat} {numbers : List Nat} (hmem : n ∈ numbers) : n ≤ greatest numbers := by
  induction numbers with
  | nil => cases hmem
  | cons m rest ih =>
    rw [greatest_cons]
    rcases List.mem_cons.mp hmem with rfl | hrest
    · exact Nat.le_max_right _ _
    · exact Nat.le_trans (ih hrest) (Nat.le_max_left _ _)

theorem values_tallied (reports : List Report) : (tallied reports).values = accounted reports := by
  unfold Tally.values accounted tallied
  cases (reports.filterMap Report.level?).min? <;> rfl

/-- The least level that is told is a level, so it is at most the
greatest one. -/
theorem minFill_le_maxFill (reports : List Report) (hsome : (accounted reports).minFill ≠ -1) :
    (accounted reports).minFill ≤ (accounted reports).maxFill := by
  unfold accounted at hsome ⊢
  cases hleast : (reports.filterMap Report.level?).min? with
  | none => simp [hleast] at hsome
  | some least =>
    have hle := le_greatest (List.min?_mem hleast)
    simp only [Option.elim_some]
    omega

/-! ## Reports and renders in a history -/

namespace HealthEntry

/-- The report that is made. -/
@[simp] def report? : HealthEntry → Option Report
  | .report made => some made
  | .query _ => none

end HealthEntry

namespace HealthHistory

/-- All reports. -/
def reported (history : HealthHistory) : List Report :=
  history.filterMap fun entry => entry.2.report?

/-- The reports since the last render. To observe the state is not to
render it. -/
def pending : HealthHistory → List Report
  | [] => []
  | (_, .report report) :: earlier => report :: pending earlier
  | (_, .query .observe) :: earlier => pending earlier
  | (_, .query .state) :: _ => []
  | (_, .query .values) :: _ => []

/-- The reports that were pending at each query of a kind. -/
def pendingAt (kind : HealthQuery) : HealthHistory → List (List Report)
  | [] => []
  | (_, .report _) :: earlier => pendingAt kind earlier
  | (_, .query query) :: earlier =>
    if query = kind then pending earlier :: pendingAt kind earlier else pendingAt kind earlier

/-- The reports that were told by renders of the values. -/
def told (history : HealthHistory) : List Report := (history.pendingAt .values).flatten

/-- The reports that were discarded by renders of the state. -/
def discarded (history : HealthHistory) : List Report := (history.pendingAt .state).flatten

theorem pendingAt_append (kind : HealthQuery) (occurrence? : Option (Instant × HealthEntry))
    (history : HealthHistory) :
    pendingAt kind (occurrence?.toList ++ history) =
      if occurrence?.any fun entry => entry.2 = .query kind then
        history.pending :: history.pendingAt kind
      else history.pendingAt kind := by
  cases occurrence? with
  | none => rfl
  | some entry =>
    obtain ⟨now, entry⟩ := entry
    cases entry with
    | report report => rfl
    | query query => simp [pendingAt]

/-- **Each report has one fate.** It is told, discarded or pending. -/
theorem perm_reported (history : HealthHistory) :
    history.reported.Perm (history.told ++ history.discarded ++ history.pending) := by
  induction history with
  | nil => exact .refl _
  | cons entry earlier ih =>
    obtain ⟨now, entry⟩ := entry
    cases entry with
    | report report => exact (ih.cons report).trans List.perm_middle.symm
    | query query =>
      refine List.Perm.trans ih ?_
      rw [List.perm_iff_count]
      intro report
      cases query with
      | observe => simp [told, discarded, pending, pendingAt]
      | state =>
        simp [told, discarded, pending, pendingAt]
        omega
      | values =>
        simp [told, discarded, pending, pendingAt]
        omega

/-- What renders of the values tell adds up to what they cleared. -/
theorem sum_told (told : Values → Nat) {report : Report}
    (htold : ∀ reports, told (accounted reports) = reports.count report) (history : HealthHistory) :
    (((history.pendingAt .values).map accounted).map told).sum = history.told.count report := by
  rw [HealthHistory.told, List.count_flatten, List.map_map]
  congr 2
  funext reports
  exact htold reports

end HealthHistory

/-! ## The tally of an input -/

namespace Input

open HealthHistory

/-- The tally of an input takes up what is reported to it. -/
theorem tally_take {i : Input} {reports : List Report} (htally : i.tally = tallied reports)
    (now : Instant) (report : Report) :
    (i.take now report).tally = tallied (report :: reports) := by
  cases report with
  | level level =>
    simp only [take, reportLevel, htally, tallied, List.filterMap_cons, Report.level?,
      Report.left?, Report.right?, greatest_cons, List.min?_cons, List.count_cons]
    cases hleast : (reports.filterMap Report.level?).min? <;> simp [Nat.min_comm]
  | peaks left right =>
    simp [take, reportPeaks, htally, tallied, List.filterMap_cons, greatest_cons, magnitude]
  | underrun => simp [take, reportUnderrun, htally, tallied, List.filterMap_cons]
  | overrun => simp [take, reportOverrun, htally, tallied, List.filterMap_cons]

/-- What a tally keeps of a history is what is pending in it. -/
theorem tally_reached (name : String) (limits : Thresholds) (created : Instant)
    (history : HealthHistory) :
    (reached (create name limits created) history).tally = tallied history.pending := by
  induction history with
  | nil => rfl
  | cons entry earlier ih =>
    obtain ⟨now, entry⟩ := entry
    cases entry with
    | report report => exact tally_take ih now report
    | query query =>
      cases query with
      | observe => exact ih
      | state => rfl
      | values => rfl

/-- The values of an input tell of the reports that are pending. -/
theorem Lives.values {i : Input} {history : HealthHistory} (hlives : i.Lives history) :
    i.renderValues.1 = accounted history.pending := by
  obtain ⟨created, hreached⟩ := hlives
  have htally : i.tally = tallied history.pending := by
    rw [← tally_reached i.name i.limits created history, ← hreached]
    rfl
  show i.tally.values = _
  rw [htally, values_tallied]

end Input

/-! ## The values in a roster -/

namespace Roster

variable {r : Roster} {n : InputId}

/-- The values that an activity shows of an input: in the listing, under
its name, or by themselves. -/
def shows? (r : Roster) (n : InputId) : Activity → Option Values
  | .operation .renderValues =>
    if r.IsShown n then
      (r.name? n).bind fun name => Keyed.get? name (r.renderEach Input.renderValues).1
    else none
  | .direct m _ (.query .values) =>
    if m = n ∧ r.alive n then (r.input? n).map fun i => i.renderValues.1 else none
  | _ => none

/-- All values that were shown of an input. -/
def valuesShown (limits : Thresholds) (n : InputId) : Activities → List Values
  | [] => []
  | activity :: earlier =>
    ((worked limits earlier).shows? n activity).toList ++ valuesShown limits n earlier

theorem fst_renderEach_eq_map {α : Type} (render : Input → α × Input) {shown : InputId → α}
    (hshown : ∀ n i, r.input? n = some i → (render i).1 = shown n) :
    (r.renderEach render).1 = r.liveEntries.map fun (name, n) => (name, shown n) := by
  show r.liveEntries.filterMap _ = _
  rw [List.filterMap_eq_map_iff_forall_eq_some]
  intro entry hentry
  have halive : r.alive entry.2 = true := (List.mem_filter.mp hentry).2
  obtain ⟨i, hinput⟩ := exists_input?_of_alive halive
  simp [hinput, hshown entry.2 i hinput]

/-- A listing shows an input under its name. -/
theorem Tied.get?_renderEach {α : Type} (htied : r.Tied) (render : Input → α × Input)
    (hshown : r.IsShown n) :
    ((r.name? n).bind fun name => Keyed.get? name (r.renderEach render).1) =
      (r.input? n).map fun i => (render i).1 := by
  have hordered := htied.ordered
  obtain ⟨holder, hkeeps, hcalled⟩ := htied
  obtain ⟨name, hexposed⟩ := (isShown_iff_exposes hordered).mp hshown
  have hget := (exposed?_eq_some_iff.mp hexposed).1
  rw [hcalled.name?_of_entry hkeeps hget]
  show Keyed.get? name (r.renderEach render).1 = _
  rw [get?_fst_renderEach hordered, ownRender?, hexposed]
  rfl

/-- An activity shows the values of an input if it is a query for them. -/
theorem Tied.shows?_eq (htied : r.Tied) (n : InputId) (activity : Activity) :
    r.shows? n activity =
      if (r.occurrence? n activity).any fun entry => entry.2 = .query .values then
        (r.input? n).map fun i => i.renderValues.1
      else none := by
  cases activity with
  | operation operation =>
    cases operation with
    | renderValues =>
      by_cases hshown : r.IsShown n
      · simp [shows?, occurrence?, hshown, htied.get?_renderEach Input.renderValues hshown]
      · simp [shows?, occurrence?, hshown]
    | renderState now => by_cases hshown : r.IsShown n <;> simp [shows?, occurrence?, hshown]
    | _ => simp [shows?, occurrence?]
  | direct m now entry =>
    by_cases hreach : m = n ∧ r.alive n = true
    · cases entry with
      | report report => simp [shows?, occurrence?, hreach]
      | query query => cases query <;> simp [shows?, occurrence?, hreach]
    · cases entry with
      | report report => simp [shows?, occurrence?, hreach]
      | query query => cases query <;> simp [shows?, occurrence?, hreach]

/-- The values that were shown of an input tell of what was pending each
time. -/
theorem valuesShown_eq (limits : Thresholds) (n : InputId) (activities : Activities) :
    valuesShown limits n activities =
      ((lived limits n activities).pendingAt .values).map accounted := by
  induction activities with
  | nil => rfl
  | cons activity earlier ih =>
    obtain ⟨hlives, _⟩ := lives_worked limits earlier n
    rw [valuesShown, lived, HealthHistory.pendingAt_append, (tied_worked limits earlier).shows?_eq,
      ih]
    cases hinput : (worked limits earlier).input? n with
    | none => simp [occurrence?_of_none hinput]
    | some i =>
      have hvalues := (hlives i hinput).values
      split <;> simp [hvalues]

/-- The account of the reports to an input. -/
structure Account (limits : Thresholds) (activities : Activities) (n : InputId)
    (history : HealthHistory) : Prop where
  /-- The values tell of the reports since the last render. -/
  own : ∀ i, (worked limits activities).input? n = some i →
    i.renderValues.1 = accounted history.pending
  /-- So did all values that were shown. -/
  shown : valuesShown limits n activities = (history.pendingAt .values).map accounted
  /-- Each report was told once, was discarded by a render of the state, or is pending. -/
  fates : history.reported.Perm (history.told ++ history.discarded ++ history.pending)
  underruns : history.reported.count .underrun =
    ((valuesShown limits n activities).map Values.underruns).sum +
      history.discarded.count .underrun + history.pending.count .underrun
  overruns : history.reported.count .overrun =
    ((valuesShown limits n activities).map Values.overruns).sum +
      history.discarded.count .overrun + history.pending.count .overrun

theorem account_worked (limits : Thresholds) (activities : Activities) (n : InputId) :
    Account limits activities n (lived limits n activities) := by
  have hshown := valuesShown_eq limits n activities
  have hfates := (lived limits n activities).perm_reported
  refine ⟨fun i hinput => ((lives_worked limits activities n).1 i hinput).values, hshown, hfates,
    ?_, ?_⟩
  · rw [hshown, HealthHistory.sum_told Values.underruns fun _ => rfl, hfates.count_eq,
      List.count_append, List.count_append]
  · rw [hshown, HealthHistory.sum_told Values.overruns fun _ => rfl, hfates.count_eq,
      List.count_append, List.count_append]

/-- **The values account for the reports.** Whatever is reported to the
inputs of a roster, and however they are rendered, alone or in a listing,
the values of an input tell of the reports to it since it was last
rendered. Each report is told once or discarded by a render of the state,
or is still pending; to observe an input discards nothing. A listing of
the values shows each input that is alive and listed, once. The least
level that is told is at most the greatest. -/
theorem values_accounted (limits : Thresholds) (activities : Activities) :
    let r := worked limits activities
    let pending := fun n => (lived limits n activities).pending
    (∀ n, Account limits activities n (lived limits n activities)) ∧
    r.renderValues.1 = .object [("values", .object
      (r.liveEntries.map fun (name, n) => (name, (accounted (pending n)).toJson)))] ∧
    (r.liveEntries.map Prod.snd).Nodup ∧
    (∀ n i now, r.input? n = some i →
      (i.observe now).2.renderValues.1 = accounted (pending n)) ∧
    ∀ n i, r.input? n = some i → i.renderValues.1.minFill ≠ -1 →
      i.renderValues.1.minFill ≤ i.renderValues.1.maxFill := by
  intro r pending
  have hvalues : ∀ n i, r.input? n = some i → i.renderValues.1 = accounted (pending n) :=
    fun n i hinput => ((lives_worked limits activities n).1 i hinput).values
  refine ⟨account_worked limits activities, ?_, (tied_worked limits activities).nodup_liveEntries,
    ?_, ?_⟩
  · show Json.object [("values", .object ((r.renderEach Input.renderValues).1.map _))] = _
    rw [fst_renderEach_eq_map Input.renderValues hvalues, List.map_map]
    rfl
  · intro n i now hinput
    exact hvalues n i hinput
  · intro n i hinput hsome
    rw [hvalues n i hinput] at hsome ⊢
    exact minFill_le_maxFill _ hsome

end Roster

end MuxControl
