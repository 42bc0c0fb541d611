/-
MuxControl.Proofs.HealthPolling — what asking an input for its state does
to the states it shows later.

Two histories with the same reports may differ in the queries that came
in between. What a classification reads off a history agrees for both,
but for one thing: a classification that forgives the glitches starts
their count anew, and only a classification forgives. So a quiet period
that nobody asked about is not forgiven once another glitch ends it.

`observation_outcome` says exactly when two such histories come to the
same state all the same, and `look_hides_glitches` is a case where they do
not.
-/
import MuxControl.Proofs.HealthHistory

namespace MuxControl

/-- Whether something is reported. -/
@[simp] def HealthEntry.isReport : HealthEntry → Bool
  | .report _ => true
  | .query _ => false

namespace HealthHistory

/-- A history without its queries. -/
def reports (history : HealthHistory) : HealthHistory :=
  history.filter fun entry => entry.2.isReport

/-- Whether a classification at an instant finds no data. -/
def lacksData (limits : Thresholds) (created : Instant) (history : HealthHistory)
    (now : Instant) : Bool :=
  history.isEmpty && seconds limits.noDataTimeout < now - history.lastFilled created

/-- Whether there are too many glitches that are not forgiven. -/
def isRough (limits : Thresholds) (created : Instant) (history : HealthHistory) : Bool :=
  limits.unstable ≤ min maxCount (history.glitches limits created)

/-! ## What does not depend on the queries -/

section Reports

variable (limits : Thresholds) (created now : Instant) (history : HealthHistory)

@[simp] theorem reports_report (report : Report) :
    reports ((now, .report report) :: history) = (now, .report report) :: history.reports := rfl

@[simp] theorem reports_query (query : HealthQuery) :
    reports ((now, .query query) :: history) = history.reports := rfl

/-- What every entry steps, and a query leaves alone, is read off the
reports alike. -/
theorem read_reports {α : Type} (read : HealthHistory → α)
    (step : Instant → HealthEntry → α → α)
    (hcons : ∀ now entry earlier, read ((now, entry) :: earlier) = step now entry (read earlier))
    (hneutral : ∀ now query value, step now (.query query) value = value) :
    read history.reports = read history := by
  induction history with
  | nil => rfl
  | cons entry earlier ih =>
    obtain ⟨stamp, entry⟩ := entry
    cases entry with
    | report report => rw [reports_report, hcons, hcons, ih]
    | query query => rw [reports_query, hcons, hneutral, ih]

theorem latest_reports {kind : HealthEntry → Bool}
    (hkind : ∀ query, kind (.query query) = false) :
    history.reports.latest kind created = history.latest kind created :=
  read_reports history (latest kind created)
    (fun now entry last => if kind entry then now else last)
    (fun now entry earlier => latest_cons created now entry earlier kind)
    fun now query last => by simp [hkind]

theorem isEmpty_reports : history.reports.isEmpty = history.isEmpty :=
  read_reports history isEmpty (fun _ entry empty => entry.level?.elim empty (· = 0))
    (fun _ _ _ => isEmpty_cons ..) fun _ _ _ => rfl

theorem quietReports_reports :
    history.reports.quietReports limits = history.quietReports limits :=
  read_reports history (quietReports limits)
    (fun _ entry count => (entry.quiet? limits).elim count fun quiet =>
      if quiet then count + 1 else 0)
    (fun _ _ _ => quietReports_cons ..) fun _ _ _ => rfl

theorem lastGlitch_reports : history.reports.lastGlitch created = history.lastGlitch created :=
  latest_reports created history fun _ => rfl

theorem lastFilled_reports : history.reports.lastFilled created = history.lastFilled created :=
  latest_reports created history fun _ => rfl

theorem forgives_reports :
    history.reports.forgives limits created now = history.forgives limits created now := by
  simp only [forgives, lastGlitch_reports]

theorem lacksData_reports :
    history.reports.lacksData limits created now = history.lacksData limits created now := by
  simp only [lacksData, isEmpty_reports, lastFilled_reports]

end Reports

/-! ## Two histories with the same reports -/

section SameReports

variable {limits : Thresholds} {created : Instant} {history history' : HealthHistory}

/-- The state is unstable just if data is there and too many glitches are
not forgiven. -/
theorem stateAt_eq_unstable_iff (now : Instant) :
    history.stateAt limits created now = .unstable ↔
      history.lacksData limits created now = false ∧
        limits.unstable ≤ (if history.forgives limits created now then 0
          else min maxCount (history.glitches limits created)) := by
  unfold stateAt
  simp only
  generalize (if history.forgives limits created now then 0
    else min maxCount (history.glitches limits created)) = unforgiven
  change (if history.lacksData limits created now = true then _ else _) = _ ↔ _
  cases history.lacksData limits created now with
  | true => simp
  | false =>
    simp only [Bool.false_eq_true, if_false, true_and]
    split
    · next hrough => simp [hrough]
    · next hcalm =>
      split <;> simp [hcalm]

/-- Without data, forgiving, or with as many glitches for the threshold,
the state is the same. -/
theorem stateAt_congr (hsame : history.reports = history'.reports) (now : Instant)
    (hagree : history.lacksData limits created now = true ∨
      history.forgives limits created now = true ∨
      history.isRough limits created = history'.isRough limits created) :
    history.stateAt limits created now = history'.stateAt limits created now := by
  have hempty : history.isEmpty = history'.isEmpty := by
    rw [← isEmpty_reports, hsame, isEmpty_reports]
  have hfilled : history.lastFilled created = history'.lastFilled created := by
    rw [← lastFilled_reports, hsame, lastFilled_reports]
  have hquiet : history.quietReports limits = history'.quietReports limits := by
    rw [← quietReports_reports, hsame, quietReports_reports]
  have hforgives : history.forgives limits created now = history'.forgives limits created now := by
    rw [← forgives_reports, hsame, forgives_reports]
  unfold stateAt
  simp only [hempty, hfilled, hquiet, hforgives]
  obtain hlacks | hforgiven | hrough := hagree
  · unfold lacksData at hlacks
    rw [hempty, hfilled] at hlacks
    rw [if_pos hlacks, if_pos hlacks]
  · rw [hforgives] at hforgiven
    simp only [hforgiven, if_true]
  · simp only [isRough, decide_eq_decide] at hrough
    cases history'.forgives limits created now with
    | true => rfl
    | false => simp only [Bool.false_eq_true, if_false, hrough]

/-- **When the queries do not matter.** Two histories with the same
reports come to the same state just if there is no data, the glitches are
forgiven, or both counts of them lie on one side of the threshold. -/
theorem stateAt_eq_iff (hsame : history.reports = history'.reports) (now : Instant) :
    history.stateAt limits created now = history'.stateAt limits created now ↔
      history.lacksData limits created now = true ∨
        history.forgives limits created now = true ∨
        history.isRough limits created = history'.isRough limits created := by
  refine ⟨fun hstate => ?_, stateAt_congr hsame now⟩
  cases hlacks : history.lacksData limits created now with
  | true => exact .inl rfl
  | false =>
    cases hforgives : history.forgives limits created now with
    | true => exact .inr (.inl rfl)
    | false =>
      have hlacks' : history'.lacksData limits created now = false := by
        rw [← lacksData_reports, ← hsame, lacksData_reports, hlacks]
      have hforgives' : history'.forgives limits created now = false := by
        rw [← forgives_reports, ← hsame, forgives_reports, hforgives]
      -- Either both are unstable or neither is, so the counts agree about the threshold.
      have hunstable : history.stateAt limits created now = .unstable ↔
          history'.stateAt limits created now = .unstable := by rw [hstate]
      simp only [stateAt_eq_unstable_iff, hlacks, hlacks', hforgives, hforgives',
        Bool.false_eq_true, if_false, true_and] at hunstable
      exact .inr (.inr (by simp only [isRough, hunstable]))

end SameReports

end HealthHistory

namespace Input

open HealthHistory

variable (name : String) (limits : Thresholds) (created : Instant)

theorem fst_observe_reached (history : HealthHistory) (now : Instant) :
    ((reached (create name limits created) history).observe now).1 =
      history.stateAt limits created now := by
  rw [← stateAt_settle, ← window_reached name limits created history]
  simp only [observe, Window.classify, limits_reached]

/-- **Whether being asked changes what an input answers.** Two inputs that
were given the same reports, and were asked anything at any time in
between, answer a query alike just if it is not for the state, if there
is no data, if the glitches are forgiven by then, or if the glitches that
each of them still counts lie on one side of the threshold. -/
theorem observation_outcome {history history' : HealthHistory}
    (hsame : history.reports = history'.reports) (now : Instant) (query : HealthQuery) :
    ((reached (create name limits created) history).answer now query).1 =
        ((reached (create name limits created) history').answer now query).1 ↔
      (HealthEntry.classifies (.query query) = true →
        history.lacksData limits created now = true ∨
          history.forgives limits created now = true ∨
          history.isRough limits created = history'.isRough limits created) := by
  -- Both ways of asking for the state observe the input; the values show no state.
  have hstate : some ((reached (create name limits created) history).observe now).1 =
        some ((reached (create name limits created) history').observe now).1 ↔
      history.lacksData limits created now = true ∨
        history.forgives limits created now = true ∨
        history.isRough limits created = history'.isRough limits created := by
    rw [Option.some_inj, fst_observe_reached, fst_observe_reached, stateAt_eq_iff hsame]
  cases query with
  | observe => exact hstate.trans (by simp)
  | state => exact hstate.trans (by simp)
  | values => simp [answer]

/-- Two glitches, a quiet half-hour, and one more glitch. -/
def rareGlitches : HealthHistory :=
  [(1803000, .report .underrun), (1802900, .report (.level 10)), (1000, .report .underrun),
    (0, .report .underrun)]

/-- The same reports, and one look at the end of the quiet half-hour. -/
def rareGlitchesSeen : HealthHistory :=
  [(1803000, .report .underrun), (1802900, .report (.level 10)), (1802000, .query .observe),
    (1000, .report .underrun), (0, .report .underrun)]

/-- At the end of the quiet half-hour both are forgiven, and answer alike. -/
theorem observation_outcome_quiet :
    ((reached (create "in0" {} 0) (rareGlitches.drop 1)).answer 1802950 .state).1 =
      ((reached (create "in0" {} 0) (rareGlitchesSeen.drop 1)).answer 1802950 .state).1 :=
  (observation_outcome "in0" {} 0 (by decide) 1802950 .state).mpr fun _ => by decide

/-- **One look hides two glitches.** The instants are in order and the
reports the same. The input that nobody asked is unstable with its third
glitch; the one that was asked in the quiet period has forgotten the
other two. -/
theorem look_hides_glitches :
    rareGlitches.reports = rareGlitchesSeen.reports ∧
      (rareGlitches.map Prod.fst).Pairwise (· ≥ ·) ∧
      (rareGlitchesSeen.map Prod.fst).Pairwise (· ≥ ·) ∧
      ((reached (create "in0" {} 0) rareGlitches).answer 1803000 .state).1 = some .unstable ∧
      ((reached (create "in0" {} 0) rareGlitchesSeen).answer 1803000 .state).1 =
        some .streaming := by
  decide

end Input

end MuxControl
