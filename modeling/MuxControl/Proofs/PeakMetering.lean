/-
MuxControl.Proofs.PeakMetering — the peaks that are shown are those of the
loudest reports.

A tally keeps the greatest magnitude of each channel and is converted
when it is shown. Levels rise with the peak, so that comes to the same as
converting every report and showing the loudest (`decibels_greatest`): no
report at all is as loud as silence. For the same reason a report is quiet
just if both of its channels are (`isQuiet_iff`).

`peaks_metered` says both of an input with any history, in decibels.
-/
import MuxControl.Proofs.PeakLevels
import MuxControl.Proofs.RenderedValues

namespace MuxControl

/-! ## Levels of reports -/

/-- Whether a number is a sample of 16 bits. -/
def IsSample (sample : Int) : Prop := -(fullScale : Int) - 1 ≤ sample ∧ sample ≤ fullScale

instance (sample : Int) : Decidable (IsSample sample) := inferInstanceAs (Decidable (_ ∧ _))

/-- One of the two channels of an input. -/
inductive Channel where
  | left
  | right
deriving DecidableEq, Repr, Inhabited

/-- What belongs to a channel. -/
def Channel.of {α : Type} (channel : Channel) (left right : α) : α :=
  match channel with
  | .left => left
  | .right => right

theorem Channel.apply_of {α β : Type} (f : α → β) (channel : Channel) (left right : α) :
    f (channel.of left right) = channel.of (f left) (f right) := by
  cases channel <;> rfl

namespace Report

/-- The level of the peak that is reported of a channel. -/
def loudness? (channel : Channel) : Report → Option Int
  | .peaks left right => some (decibels (channel.of left right).natAbs)
  | _ => none

/-- Whether the peaks that are reported are samples of 16 bits. -/
def IsSampled : Report → Prop
  | .peaks left right => IsSample left ∧ IsSample right
  | _ => True

instance : (report : Report) → Decidable report.IsSampled
  | .peaks _ _ => inferInstanceAs (Decidable (_ ∧ _))
  | .level _ | .underrun | .overrun => inferInstanceAs (Decidable True)

theorem loudness?_eq (channel : Channel) (report : Report) :
    report.loudness? channel = (channel.of left? right? report).map decibels := by
  cases channel <;> cases report <;> rfl

theorem loudness?_bounds {channel : Channel} {report : Report} {level : Int}
    (hsampled : report.IsSampled) (hlevel : report.loudness? channel = some level) :
    silenceFloor ≤ level ∧ level ≤ 0 := by
  cases report with
  | peaks left right =>
    obtain rfl := Option.some.inj hlevel
    have hsample : IsSample (channel.of left right) := by
      cases channel with
      | left => exact hsampled.1
      | right => exact hsampled.2
    refine ⟨silenceFloor_le_decibels _, decibels_nonpos ?_⟩
    obtain ⟨hleast, hgreatest⟩ := hsample
    omega
  | _ => cases hlevel

end Report

/-! ## The loudest -/

/-- The greatest of some levels, or that of silence. -/
def loudest (levels : List Int) : Int := levels.max?.getD silenceFloor

theorem loudest_cons (level : Int) (levels : List Int) (hfloor : silenceFloor ≤ level) :
    loudest (level :: levels) = max (loudest levels) level := by
  unfold loudest
  rw [List.max?_cons, Option.getD_some]
  cases levels.max? with
  | none => exact (max_eq_right hfloor).symm
  | some other => exact max_comm level other

theorem loudest_bounds {levels : List Int}
    (hbounds : ∀ level ∈ levels, silenceFloor ≤ level ∧ level ≤ 0) :
    silenceFloor ≤ loudest levels ∧ loudest levels ≤ 0 := by
  unfold loudest
  cases hmax : levels.max? with
  | none => exact ⟨le_rfl, by decide⟩
  | some level => exact hbounds level (List.max?_mem hmax)

/-- The level of the greatest peak is the greatest level. -/
theorem decibels_greatest (peaks : List Nat) :
    decibels (greatest peaks) = loudest (peaks.map decibels) := by
  induction peaks with
  | nil => exact decibels_zero
  | cons peak rest ih =>
    rw [greatest_cons, decibels_mono.map_max, List.map_cons,
      loudest_cons _ _ (silenceFloor_le_decibels peak), ih]

/-- What reports come to in a channel is the level of the loudest. -/
theorem peak_accounted (channel : Channel) (reports : List Report) :
    channel.of (accounted reports).peakLeft (accounted reports).peakRight =
      loudest (reports.filterMap (Report.loudness? channel)) := by
  have hgreatest : channel.of (accounted reports).peakLeft (accounted reports).peakRight =
      decibels (greatest (reports.filterMap (channel.of Report.left? Report.right?))) :=
    (channel.apply_of (fun peak? => decibels (greatest (reports.filterMap peak?))) _ _).symm
  rw [hgreatest, decibels_greatest, List.map_filterMap]
  simp only [Report.loudness?_eq]

/-! ## Inputs -/

namespace Input

/-- A report is quiet if both of its channels are. -/
theorem isQuiet_iff (limits : Thresholds) (left right : Int) :
    isQuiet limits left right = true ↔
      decibels left.natAbs < limits.silenceLevel ∧ decibels right.natAbs < limits.silenceLevel := by
  unfold isQuiet magnitude
  rw [decide_eq_true_eq, decibels_mono.map_max, max_lt_iff]

/-- **The peaks that are shown** of an input are those of the loudest
reports since the last render, channel by channel, or silence if there
were none. They lie between -90 and 0 decibels. A report adds to the quiet
ones just if both of its channels are below the silence level, and ends
their run otherwise. All levels are the decibels below full scale, rounded
to the nearest integer, which rise with the magnitude; there is nothing
halfway between two of them. -/
theorem peaks_metered (name : String) (limits : Thresholds) (created : Instant)
    (history : HealthHistory) (hsampled : ∀ report ∈ history.pending, report.IsSampled) :
    let input := reached (create name limits created) history
    let values := input.renderValues.1
    (∀ channel : Channel,
      channel.of values.peakLeft values.peakRight =
          loudest (history.pending.filterMap (Report.loudness? channel)) ∧
        -90 ≤ channel.of values.peakLeft values.peakRight ∧
        channel.of values.peakLeft values.peakRight ≤ 0) ∧
    (∀ left right, (input.reportPeaks left right).window.quietReports =
      if decibels left.natAbs < limits.silenceLevel ∧ decibels right.natAbs < limits.silenceLevel
      then countUp input.window.quietReports else 0) ∧
    decibels 0 = -90 ∧ Monotone decibels ∧
    ∀ peak : Nat, 0 < peak → |20 * Real.logb 10 (peak / 32767) - decibels peak| < 1 / 2 := by
  intro input values
  have hvalues : values = accounted history.pending := by
    show input.tally.values = _
    rw [tally_reached, values_tallied]
  refine ⟨fun channel => ?_, fun left right => ?_, decibels_zero, decibels_mono,
    fun peak hpeak => abs_sub_decibels_lt hpeak⟩
  · have hloudest := peak_accounted channel history.pending
    rw [hvalues, hloudest]
    refine ⟨rfl, loudest_bounds fun level hlevel => ?_⟩
    obtain ⟨report, hreport, hsome⟩ := List.mem_filterMap.mp hlevel
    exact Report.loudness?_bounds (hsampled report hreport) hsome
  · have hlimits : input.limits = limits := limits_reached name limits created history
    show (input.window.reportQuiet (isQuiet input.limits left right)).quietReports = _
    rw [hlimits, Window.reportQuiet]
    exact if_congr (isQuiet_iff limits left right) rfl rfl

/-- Two reports of peaks since the state was rendered; the louder one is
another one in each channel. -/
theorem peaks_metered_each_channel :
    let history : HealthHistory :=
      [(3, .report (.peaks 100 (-32768))), (2, .report .underrun),
        (2, .report (.peaks (-16384) 0)), (1, .query .state), (0, .report (.peaks 32767 32767))]
    let values := (reached (create "in" {} 0) history).renderValues.1
    (∀ report ∈ history.pending, report.IsSampled) ∧ values.peakLeft = -6 ∧
      values.peakRight = 0 := by
  intro history values
  have hsampled : ∀ report ∈ history.pending, report.IsSampled := by decide
  obtain ⟨hshown, _⟩ := peaks_metered "in" {} 0 history hsampled
  refine ⟨hsampled, (hshown .left).1.trans ?_, (hshown .right).1.trans ?_⟩
  · decide +kernel
  · decide +kernel

end Input

end MuxControl
